import DocPress.Json.Printer
import DocPress.Json.Reader
import Mathlib.Data.List.Basic

/-!
# JSON strings

A character is written as itself or as an escape, and the reader gives it back
(`string?_escapeChar`).  A character of the first 65536 is one 16-bit unit and any other
character two, the first of which is never a character on its own.  What is written are
printable ASCII characters only (`printable_quote`).
-/

namespace DocPress.Json

/-- A printable ASCII character. -/
def IsPrintable (c : Char) : Prop := 32 ≤ c.toNat ∧ c.toNat < 127

instance : DecidablePred IsPrintable := fun c =>
  inferInstanceAs (Decidable (32 ≤ c.toNat ∧ c.toNat < 127))

/-- A text of printable ASCII characters. -/
def ArePrintable (t : Text) : Prop := ∀ c ∈ t, IsPrintable c

instance : DecidablePred ArePrintable := fun t => List.decidableBAll IsPrintable t

@[simp] theorem arePrintable_nil : ArePrintable [] := nofun

@[simp] theorem arePrintable_cons {c : Char} {t : Text} :
    ArePrintable (c :: t) ↔ IsPrintable c ∧ ArePrintable t := List.forall_mem_cons

@[simp] theorem arePrintable_append {t u : Text} :
    ArePrintable (t ++ u) ↔ ArePrintable t ∧ ArePrintable u := List.forall_mem_append

/-! ### Units of 16 bits -/

theorem hexDigit?_digitChar : ∀ n < 16, Text.Ranges.hexDigit? n.digitChar = some n := by
  decide

theorem isPrintable_digitChar : ∀ n < 16, IsPrintable n.digitChar := by
  decide

theorem hex_one {n : Nat} (hn : n < 16) : Text.hex 1 n = [n.digitChar] := by
  rw [Text.hex, Nat.toDigits_of_lt_base hn]
  rfl

/-- The last digit of a number stands behind the digits of the rest, zeros before it
included. -/
theorem hex_succ (k n : Nat) :
    Text.hex (k + 2) n = Text.hex (k + 1) (n / 16) ++ [(n % 16).digitChar] := by
  have hstep : Nat.toDigits 16 n =
      if n < 16 then [n.digitChar] else Nat.toDigits 16 (n / 16) ++ [(n % 16).digitChar] :=
    Nat.toDigits_eq_if (by decide)
  rw [Text.hex, Text.hex, hstep]
  by_cases hn : n < 16
  · -- the rest is zero, and its only digit is one of the zeros
    have hrest : n / 16 = 0 ∧ n % 16 = n := by omega
    rw [if_pos hn, hrest.1, hrest.2]
    change List.replicate (k + 1) '0' ++ [n.digitChar] =
      List.replicate k '0' ++ ['0'] ++ [n.digitChar]
    rw [List.replicate_succ']
  · rw [if_neg hn]
    simp

/-- A unit is written with its four hexadecimal digits. -/
theorem hex_eq {n : Nat} (hn : n < 65536) :
    Text.hex 4 n =
      [(n / 16 / 16 / 16).digitChar, (n / 16 / 16 % 16).digitChar, (n / 16 % 16).digitChar,
        (n % 16).digitChar] := by
  rw [hex_succ, hex_succ, hex_succ, hex_one (by omega)]
  rfl

theorem unit?_hex {n : Nat} (hn : n < 65536) (rest : Text) :
    unit? (Text.hex 4 n ++ rest) = some (n, rest) := by
  rw [hex_eq hn]
  simp only [List.cons_append, List.nil_append, unit?]
  rw [hexDigit?_digitChar _ (by omega), hexDigit?_digitChar _ (by omega),
    hexDigit?_digitChar _ (by omega), hexDigit?_digitChar _ (by omega)]
  have hsum : n / 16 / 16 / 16 * 4096 + n / 16 / 16 % 16 * 256 + n / 16 % 16 * 16 + n % 16 = n := by
    omega
  simp [hsum]

theorem printable_unitEscape {n : Nat} (hn : n < 65536) : ArePrintable (unitEscape n) := by
  rw [unitEscape, hex_eq hn]
  simp only [arePrintable_cons, arePrintable_nil, and_true]
  exact ⟨by decide, by decide, isPrintable_digitChar _ (by omega),
    isPrintable_digitChar _ (by omega), isPrintable_digitChar _ (by omega),
    isPrintable_digitChar _ (by omega)⟩

/-- The number of a character is none of the units that stand in pairs. -/
theorem toNat_lt_or_le (c : Char) :
    c.toNat < 0xD800 ∨ 0xE000 ≤ c.toNat ∧ c.toNat < 0x110000 := by
  rcases c.valid with h | ⟨hlow, hhigh⟩
  · exact .inl h
  · exact .inr ⟨Nat.succ_le_of_lt hlow, hhigh⟩

theorem escape?_unit {c : Char} (hc : c.toNat < 0x10000) (rest : Text) :
    escape? ('u' :: Text.hex 4 c.toNat ++ rest) = some (c, rest) := by
  have hvalid := toNat_lt_or_le c
  rw [List.cons_append, escape?, unit?_hex hc]
  have hfirst : ¬ (0xD800 ≤ c.toNat ∧ c.toNat < 0xDC00) := by omega
  have hsecond : ¬ (0xDC00 ≤ c.toNat ∧ c.toNat < 0xE000) := by omega
  simp [hfirst, hsecond]

/-- Two units that form a pair are read as one character. -/
theorem escape?_pair {c : Char} {m n : Nat} (hm : m < 0x400) (hn : n < 0x400)
    (hc : c.toNat = 0x10000 + m * 0x400 + n) (rest : Text) :
    escape? ('u' :: Text.hex 4 (0xD800 + m) ++ (unitEscape (0xDC00 + n) ++ rest)) =
      some (c, rest) := by
  have hfirst : (0xD800 ≤ 0xD800 + m && 0xD800 + m < 0xDC00) = true := by
    simp only [Bool.and_eq_true, decide_eq_true_eq]
    omega
  have hsecond : (0xDC00 ≤ 0xDC00 + n && 0xDC00 + n < 0xE000) = true := by
    simp only [Bool.and_eq_true, decide_eq_true_eq]
    omega
  have hsum : 0x10000 + (0xD800 + m - 0xD800) * 0x400 + (0xDC00 + n - 0xDC00) = c.toNat := by
    omega
  rw [List.cons_append, escape?, unit?_hex (by omega), unitEscape]
  simp only [Option.bind_eq_bind, Option.bind_some, hfirst, if_true, List.cons_append]
  rw [unit?_hex (by omega)]
  simp only [Option.bind_some, hsecond, if_true, hsum, Char.ofNat_toNat]

/-! ### Strings -/

/-- How a character is written: by a letter behind a backslash, as itself, or by one or two
units. -/
theorem escapeChar_cases (c : Char) :
    (∃ e, escapeChar c = ['\\', e] ∧ IsPrintable e ∧
      ∀ rest, escape? (e :: rest) = some (c, rest)) ∨
    (escapeChar c = [c] ∧ IsPrintable c ∧ c ≠ '"' ∧ c ≠ '\\') ∨
    (escapeChar c = unitEscape c.toNat ∧ c.toNat < 0x10000) ∨
    (escapeChar c = unitEscape (0xD800 + (c.toNat - 0x10000) / 0x400) ++
      unitEscape (0xDC00 + (c.toNat - 0x10000) % 0x400) ∧ 0x10000 ≤ c.toNat) := by
  rw [escapeChar]
  split
  · next h => subst h; exact .inl ⟨_, rfl, by decide, fun _ => rfl⟩
  split
  · next h => subst h; exact .inl ⟨_, rfl, by decide, fun _ => rfl⟩
  split
  · next h => subst h; exact .inl ⟨_, rfl, by decide, fun _ => rfl⟩
  split
  · next h => subst h; exact .inl ⟨_, rfl, by decide, fun _ => rfl⟩
  split
  · next h => subst h; exact .inl ⟨_, rfl, by decide, fun _ => rfl⟩
  split
  · next h => subst h; exact .inl ⟨_, rfl, by decide, fun _ => rfl⟩
  split
  · next h => subst h; exact .inl ⟨_, rfl, by decide, fun _ => rfl⟩
  split
  · next h =>
      simp only [Bool.and_eq_true, decide_eq_true_eq] at h
      exact .inr (.inl ⟨rfl, h, by assumption, by assumption⟩)
  split
  · next h => exact .inr (.inr (.inl ⟨rfl, h⟩))
  · next h => exact .inr (.inr (.inr ⟨rfl, Nat.not_lt.1 h⟩))

/-- A character is read back from what is written for it. -/
theorem string?_escapeChar (fuel : Nat) (c : Char) (rest : Text) :
    string? (fuel + 1) (escapeChar c ++ rest) =
      (string? fuel rest).map fun p => (c :: p.1, p.2) := by
  -- three of the four kinds begin with a backslash, and differ only in what `escape?` reads
  have hescape : ∀ t, escape? t = some (c, rest) →
      string? (fuel + 1) ('\\' :: t) = (string? fuel rest).map fun p => (c :: p.1, p.2) := by
    intro t ht
    rw [string?, if_neg (by decide), if_pos rfl, ht, Option.bind_eq_bind, Option.bind_some]
    dsimp only
    cases string? fuel rest with
    | none => rfl
    | some read => rfl
  obtain ⟨e, he, -, hread⟩ | ⟨he, -, hquote, hslash⟩ | ⟨he, hc⟩ | ⟨he, hc⟩ := escapeChar_cases c
  · rw [he]
    exact hescape _ (hread rest)
  · rw [he, List.singleton_append, string?, if_neg hquote, if_neg hslash]
    cases string? fuel rest with
    | none => rfl
    | some read => rfl
  · rw [he]
    exact hescape _ (escape?_unit hc rest)
  · have hvalid := toNat_lt_or_le c
    rw [he, List.append_assoc]
    exact hescape _ (escape?_pair (by omega) (by omega) (by omega) rest)

theorem escapeChar_ne_nil (c : Char) : escapeChar c ≠ [] := by
  obtain ⟨e, he, -⟩ | ⟨he, -⟩ | ⟨he, -⟩ | ⟨he, -⟩ := escapeChar_cases c <;> rw [he] <;> exact nofun

theorem printable_escapeChar (c : Char) : ArePrintable (escapeChar c) := by
  obtain ⟨e, he, hprintable, -⟩ | ⟨he, hprintable, -⟩ | ⟨he, hc⟩ | ⟨he, hc⟩ := escapeChar_cases c
  · simpa [he, hprintable] using (by decide : IsPrintable '\\')
  · simpa [he] using hprintable
  · rw [he]
    exact printable_unitEscape hc
  · have hvalid := toNat_lt_or_le c
    rw [he, arePrintable_append]
    exact ⟨printable_unitEscape (by omega), printable_unitEscape (by omega)⟩

/-- A string is read back up to its closing quotation mark. -/
theorem string?_flatMap {fuel : Nat} {t : Text} (hfuel : t.length < fuel) (rest : Text) :
    string? fuel (t.flatMap escapeChar ++ '"' :: rest) = some (t, rest) := by
  induction t generalizing fuel with
  | nil =>
      obtain ⟨fuel, rfl⟩ := Nat.exists_eq_add_of_lt hfuel
      simp [string?]
  | cons c t ih =>
      match fuel with
      | fuel + 1 =>
        rw [List.flatMap_cons, List.append_assoc, string?_escapeChar, ih (by simpa using hfuel)]
        rfl

theorem printable_quote (t : Text) : ArePrintable (quote t) := by
  have hbody : ArePrintable (t.flatMap escapeChar) := by
    intro c hc
    obtain ⟨d, -, hd⟩ := List.mem_flatMap.1 hc
    exact printable_escapeChar d c hd
  simp only [quote, arePrintable_cons, arePrintable_append, arePrintable_nil, and_true]
  exact ⟨⟨by decide, hbody⟩, by decide⟩

theorem length_le_flatMap (t : Text) : t.length ≤ (t.flatMap escapeChar).length := by
  induction t with
  | nil => simp
  | cons c t ih =>
      have hlength := List.length_pos_iff.2 (escapeChar_ne_nil c)
      simp only [List.flatMap_cons, List.length_append, List.length_cons]
      omega

end DocPress.Json
