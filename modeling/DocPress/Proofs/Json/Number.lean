import DocPress.Proofs.Decimal.Reduced
import DocPress.Proofs.Json.Quote
import DocPress.Proofs.Text.Words
import Mathlib.Data.List.Basic

/-!
# JSON numbers

A number is read as its digits before and behind the point, and an exponent
(`unsigned?_decimal`).  So what is written for an integer is read as this integer, and what
is written for a decimal as its form with the fewest digits, wherever its point stands
(`unsigned?_digitsText`).
-/

namespace DocPress.Json

/-- Decimal digits. -/
def AreDigits (t : Text) : Prop := ∀ c ∈ t, c.isDigit = true

/-- A text that does not go on with a number. -/
def EndsNumber (rest : Text) : Prop :=
  ∀ c ∈ rest.head?, c.isDigit = false ∧ c ≠ '.' ∧ c ≠ 'e' ∧ c ≠ 'E'

@[simp] theorem areDigits_append {t u : Text} :
    AreDigits (t ++ u) ↔ AreDigits t ∧ AreDigits u := List.forall_mem_append

theorem ne_of_isDigit {c d : Char} (hc : c.isDigit = true) (hd : d.isDigit = false) :
    c ≠ d := by
  rintro rfl
  exact Bool.false_ne_true (hd.symm.trans hc)

theorem areDigits_ofNat (n : Nat) : AreDigits (Text.ofNat n) := fun _ hc =>
  Nat.isDigit_of_mem_toDigits (by decide) (by decide) hc

theorem areDigits_zeros (k : Nat) : AreDigits (List.replicate k '0') := fun c hc => by
  rw [List.eq_of_mem_replicate hc]
  rfl

theorem AreDigits.run {t rest : Text} (h : AreDigits t)
    (hrest : ∀ c ∈ rest.head?, c.isDigit = false) :
    (t ++ rest).takeWhile Char.isDigit = t ∧ (t ++ rest).dropWhile Char.isDigit = rest :=
  Text.takeWhile_run h hrest

/-! ### The value of digits -/

theorem natOfDigits_append (t u : Text) :
    natOfDigits (t ++ u) = natOfDigits t * 10 ^ u.length + natOfDigits u := by
  have hfold : ∀ n, u.foldl (fun n c => n * 10 + (c.toNat - 48)) n =
      n * 10 ^ u.length + natOfDigits u := by
    induction u with
    | nil => simp [natOfDigits]
    | cons c u ih =>
        intro n
        rw [natOfDigits, List.foldl_cons, List.foldl_cons, ih, ih, List.length_cons, pow_succ]
        ring
  rw [natOfDigits, List.foldl_append, hfold]
  rfl

@[simp] theorem natOfDigits_ofNat (n : Nat) : natOfDigits (Text.ofNat n) = n := by
  have hdigits : Nat.ofDigitChars 10 (Text.ofNat n) 0 = n :=
    Nat.ofDigitChars_toDigits (by decide) (by decide)
  simp only [Nat.ofDigitChars, mul_comm 10] at hdigits
  exact hdigits

@[simp] theorem natOfDigits_zeros (k : Nat) : natOfDigits (List.replicate k '0') = 0 := by
  induction k with
  | zero => rfl
  | succ k ih =>
      rw [List.replicate_succ', natOfDigits_append, ih]
      rfl

/-- A number is below the power of ten with as many zeros as it has digits. -/
theorem natOfDigits_lt {t : Text} (h : AreDigits t) : natOfDigits t < 10 ^ t.length := by
  induction t with
  | nil => decide
  | cons c t ih =>
      obtain ⟨hc, ht⟩ := List.forall_mem_cons.1 h
      have hdigit : natOfDigits [c] < 10 := by
        have hle : c.toNat ≤ 57 := (Bool.and_eq_true_iff.1 hc).2 |> of_decide_eq_true
        change 0 * 10 + (c.toNat - 48) < 10
        omega
      have hrest := ih ht
      rw [← List.singleton_append, natOfDigits_append, List.length_append, List.length_singleton,
        pow_add, pow_one]
      calc natOfDigits [c] * 10 ^ t.length + natOfDigits t
          < natOfDigits [c] * 10 ^ t.length + 10 ^ t.length := Nat.add_lt_add_left hrest _
        _ = (natOfDigits [c] + 1) * 10 ^ t.length := (Nat.succ_mul _ _).symm
        _ ≤ 10 * 10 ^ t.length := Nat.mul_le_mul_right _ hdigit

theorem ofNat_ne_nil (n : Nat) : Text.ofNat n ≠ [] := Nat.toDigits_ne_nil

/-! ### The parts of a number -/

/-- How an exponent is written, if there is one. -/
def powerText (e : Option Int) : Text := (e.map Decimal.exponentText).getD []

theorem exponent?_powerText (e : Option Int) {rest : Text} (h : EndsNumber rest) :
    exponent? (powerText e ++ rest) = e.map fun n => (n, rest) := by
  cases e with
  | none =>
      cases rest with
      | nil => rfl
      | cons c rest =>
          obtain ⟨-, -, hlower, hupper⟩ := h c rfl
          simp [powerText, exponent?, hlower, hupper]
  | some n =>
      have hdigits : AreDigits (Text.padded 2 n.natAbs) := by
        rw [Text.padded, areDigits_append]
        exact ⟨areDigits_zeros _, areDigits_ofNat _⟩
      have hvalue : natOfDigits (Text.padded 2 n.natAbs) = n.natAbs := by
        rw [Text.padded, natOfDigits_append, natOfDigits_zeros, natOfDigits_ofNat]
        omega
      have hne : (Text.padded 2 n.natAbs) ≠ [] := by simp [Text.padded, ofNat_ne_nil]
      obtain ⟨htake, hdrop⟩ := hdigits.run (fun c hc => (h c hc).1)
      by_cases hn : n < 0
      · simp [powerText, Decimal.exponentText, hn, exponent?, htake, hdrop, hvalue, hne,
          abs_of_neg hn]
      · simp [powerText, Decimal.exponentText, hn, exponent?, htake, hdrop, hvalue, hne,
          abs_of_nonneg (Int.not_lt.1 hn)]

theorem head?_powerText {e : Option Int} {rest : Text} (h : EndsNumber rest) :
    ∀ c ∈ (powerText e ++ rest).head?, c.isDigit = false ∧ c ≠ '.' := by
  cases e with
  | none => exact fun c hc => ⟨(h c hc).1, (h c hc).2.1⟩
  | some n =>
      intro c hc
      cases hc
      exact ⟨rfl, by decide⟩

/-- Without a point behind the digits there is no fraction, and without an exponent too the
number is an integer. -/
theorem unsigned?_whole (negative : Bool) {w rest : Text} {e : Option Int}
    (hw : AreDigits w) (hne : w ≠ []) (hrest : EndsNumber rest) :
    unsigned? negative (w ++ (powerText e ++ rest)) =
      some ((e.map fun n => .decimal (Decimal.reduced ⟨negative, natOfDigits w, n⟩)).getD
        (.int (if negative then -natOfDigits w else natOfDigits w)), rest) := by
  have hpower := head?_powerText (e := e) hrest
  have hexponent := exponent?_powerText e hrest
  have hnone : e = none → powerText e ++ rest = rest := by
    rintro rfl
    rfl
  obtain ⟨r, hr⟩ : ∃ r, powerText e ++ rest = r := ⟨_, rfl⟩
  rw [hr] at hpower hexponent hnone ⊢
  obtain ⟨htake, hdrop⟩ := hw.run fun c hc => (hpower c hc).1
  rw [unsigned?, htake, hdrop]
  cases r with
  | nil =>
      cases e with
      | none => simpa [hne, exponent?] using hnone rfl
      | some n => cases hexponent
  | cons c r =>
      have hpoint : c ≠ '.' := (hpower c rfl).2
      cases e with
      | none => simpa [hne, hpoint, hexponent] using hnone rfl
      | some n => simp [hne, hpoint, hexponent]

/-- With a point and digits behind it the number is a decimal. -/
theorem unsigned?_decimal (negative : Bool) {w f rest : Text} {e : Option Int}
    (hw : AreDigits w) (hne : w ≠ []) (hf : AreDigits f) (hsome : f ≠ [])
    (hrest : EndsNumber rest) :
    unsigned? negative (w ++ '.' :: (f ++ (powerText e ++ rest))) =
      some (.decimal (Decimal.reduced
        ⟨negative, natOfDigits (w ++ f), e.getD 0 - f.length⟩), rest) := by
  have hpower := head?_powerText (e := e) hrest
  have hexponent := exponent?_powerText e hrest
  have hnone : e = none → powerText e ++ rest = rest := by
    rintro rfl
    rfl
  obtain ⟨r, hr⟩ : ∃ r, powerText e ++ rest = r := ⟨_, rfl⟩
  rw [hr] at hpower hexponent hnone ⊢
  have hpoint : ∀ c ∈ ('.' :: (f ++ r)).head?, c.isDigit = false := by
    rintro c ⟨⟩
    rfl
  obtain ⟨htake, hdrop⟩ := hw.run hpoint
  obtain ⟨htakeF, hdropF⟩ := hf.run fun c hc => (hpower c hc).1
  rw [unsigned?, htake, hdrop]
  cases e with
  | none => simpa [hne, htakeF, hdropF, hsome, hexponent] using hnone rfl
  | some n => simp [hne, htakeF, hdropF, hsome, hexponent]

/-! ### What is written -/

/-- A number with a point is known by its digits and by where the point stands among them. -/
theorem unsigned?_pointed (negative : Bool) {t w f rest : Text} {p : Option Int}
    {n k : Nat} {e : Int} (ht : t = w ++ '.' :: (f ++ (powerText p ++ rest)))
    (hn : n % 10 ≠ 0) (hw : AreDigits w) (hne : w ≠ []) (hf : AreDigits f)
    (hsome : f ≠ []) (hdigits : natOfDigits (w ++ f) = n * 10 ^ k)
    (he : p.getD 0 - f.length + k = e) (hrest : EndsNumber rest) :
    unsigned? negative t = some (.decimal ⟨negative, n, e⟩, rest) := by
  rw [ht, unsigned?_decimal negative hw hne hf hsome hrest, hdigits,
    Decimal.reduced_mul_pow negative hn, he]

/-- The text of digits that do not end with a zero is read as these digits, wherever the
point stands. -/
theorem unsigned?_digitsText (negative : Bool) {n : Nat} (hn : n % 10 ≠ 0) (e : Int)
    {rest : Text} (hrest : EndsNumber rest) :
    unsigned? negative
        (Decimal.digitsText (Text.ofNat n) ((Text.ofNat n).length + e) ++ rest) =
      some (.decimal ⟨negative, n, e⟩, rest) := by
  have hdigits := areDigits_ofNat n
  have hvalue := natOfDigits_ofNat n
  have hne := ofNat_ne_nil n
  obtain ⟨digits, hd⟩ : ∃ digits, Text.ofNat n = digits := ⟨_, rfl⟩
  rw [hd] at hdigits hvalue hne ⊢
  obtain ⟨point, hpoint⟩ : ∃ point : Int, digits.length + e = point := ⟨_, rfl⟩
  rw [hpoint, Decimal.digitsText.eq_def]
  split
  · split
    · next hle =>
        -- zeros stand between the point and the digits
        refine unsigned?_pointed negative (w := ['0'])
          (f := List.replicate (-point).toNat '0' ++ digits) (p := none) (k := 0) ?_ hn
          (areDigits_zeros 1) (List.cons_ne_nil _ _)
          (areDigits_append.2 ⟨areDigits_zeros _, hdigits⟩) (by simp [hne]) ?_ ?_ hrest
        · simp [powerText]
        · rw [natOfDigits_append, natOfDigits_append, natOfDigits_zeros, hvalue]
          simp [natOfDigits]
        · rw [List.length_append, List.length_replicate, Option.getD_none]
          omega
    · dsimp only
      split
      · next hlength =>
          -- zeros stand between the digits and the point
          refine unsigned?_pointed negative
            (w := digits ++ List.replicate (point.toNat - digits.length) '0') (f := ['0'])
            (p := none) (k := point.toNat - digits.length + 1) ?_ hn
            (areDigits_append.2 ⟨hdigits, areDigits_zeros _⟩) (by simp [hne])
            (areDigits_zeros 1) (List.cons_ne_nil _ _) ?_ ?_ hrest
          · simp [powerText]
          · rw [natOfDigits_append, natOfDigits_append, natOfDigits_zeros, hvalue,
              List.length_replicate, pow_succ]
            simp [natOfDigits, mul_assoc]
          · rw [List.length_singleton, Option.getD_none]
            omega
      · next hlength =>
          -- the point stands among the digits
          have hboth : digits.take point.toNat ++ digits.drop point.toNat = digits :=
            List.take_append_drop _ _
          have hparts := areDigits_append.1 (hboth.symm ▸ hdigits)
          refine unsigned?_pointed negative (w := digits.take point.toNat)
            (f := digits.drop point.toNat) (p := none) (k := 0) ?_ hn hparts.1 ?_ hparts.2 ?_
            ?_ ?_ hrest
          · simp [powerText]
          · rw [← List.length_pos_iff, List.length_take]
            omega
          · rw [← List.length_pos_iff, List.length_drop]
            omega
          · rw [hboth, hvalue, pow_zero, mul_one]
          · rw [List.length_drop, Option.getD_none]
            omega
  · split
    · exact absurd rfl hne
    · next d =>
        -- a single digit stands alone before the exponent
        have hread := unsigned?_whole negative (e := some (point - 1)) hdigits hne hrest
        have hreduced := Decimal.reduced_mul_pow negative hn 0 (point - 1)
        have hexponent : point - 1 + (0 : Nat) = e := by
          rw [← hpoint, List.length_singleton]
          omega
        rw [pow_zero, mul_one, hexponent] at hreduced
        rw [hvalue, Option.map_some, Option.getD_some, hreduced] at hread
        exact hread
    · next d more hmore =>
        -- the point stands behind the first digit
        have hparts : AreDigits [d] ∧ AreDigits more := areDigits_append.1 hdigits
        refine unsigned?_pointed negative (w := [d]) (f := more) (p := some (point - 1))
          (k := 0) ?_ hn hparts.1 (List.cons_ne_nil _ _) hparts.2 ?_ ?_ ?_ hrest
        · simp [powerText]
        · exact fun hnil => hmore (by rw [hnil])
        · rw [List.singleton_append, hvalue, pow_zero, mul_one]
        · rw [Option.getD_some, ← hpoint, List.length_cons]
          omega

/-! ### Signs -/

/-- A sign as it is written. -/
def signText (negative : Bool) : Text := if negative then ['-'] else []

/-- A text that begins with a digit. -/
def BeginsDigit (t : Text) : Prop := ∃ c rest, t = c :: rest ∧ c.isDigit = true

theorem beginsDigit_ofNat (n : Nat) : BeginsDigit (Text.ofNat n) := by
  have hdigits := areDigits_ofNat n
  have hne := ofNat_ne_nil n
  cases hd : Text.ofNat n with
  | nil => exact absurd hd hne
  | cons c rest => exact ⟨c, rest, rfl, hdigits c (by simp [hd])⟩

theorem BeginsDigit.append {t : Text} (h : BeginsDigit t) (u : Text) : BeginsDigit (t ++ u) := by
  obtain ⟨c, rest, rfl, hc⟩ := h
  exact ⟨c, rest ++ u, rfl, hc⟩

/-- A number is no literal word, with or without a sign. -/
theorem scalar?_signed (negative : Bool) {t : Text} (h : BeginsDigit t) :
    scalar? (signText negative ++ t) = unsigned? negative t := by
  obtain ⟨c, rest, rfl, hc⟩ := h
  -- the words begin with letters, and behind its sign so does the one that has a sign
  have hn : 'n' ≠ c := (ne_of_isDigit hc rfl).symm
  have ht : 't' ≠ c := (ne_of_isDigit hc rfl).symm
  have hf : 'f' ≠ c := (ne_of_isDigit hc rfl).symm
  have hN : 'N' ≠ c := (ne_of_isDigit hc rfl).symm
  have hI : 'I' ≠ c := (ne_of_isDigit hc rfl).symm
  have hminus : c ≠ '-' := ne_of_isDigit hc rfl
  cases negative with
  | false => simp [signText, scalar?, Text.after?, hn, ht, hf, hN, hI, hminus, hminus.symm]
  | true => simp [signText, scalar?, Text.after?, hI]

theorem ofInt_eq (n : Int) :
    Text.ofInt n = signText (decide (n < 0)) ++ Text.ofNat n.natAbs := by
  cases n with
  | ofNat n => simp [Text.ofInt, signText]
  | negSucc n => simp [Text.ofInt, signText]

/-- An integer is read back. -/
theorem scalar?_ofInt (n : Int) {rest : Text} (hrest : EndsNumber rest) :
    scalar? (Text.ofInt n ++ rest) = some (.int n, rest) := by
  have hread := unsigned?_whole (decide (n < 0)) (e := none) (areDigits_ofNat n.natAbs)
    (ofNat_ne_nil _) hrest
  have hnumber : (if decide (n < 0) = true then -(n.natAbs : Int) else n.natAbs) = n := by
    split
    · next h =>
        rw [decide_eq_true_eq] at h
        omega
    · next h =>
        rw [decide_eq_true_eq] at h
        omega
  rw [natOfDigits_ofNat, hnumber] at hread
  rw [ofInt_eq, List.append_assoc, scalar?_signed _ ((beginsDigit_ofNat _).append _)]
  exact hread

/-- The text of a decimal without its sign. -/
def unsignedText (d : Decimal) : Text :=
  if d.reduced.digits = 0 then ['0', '.', '0']
  else
    Decimal.digitsText (Text.ofNat d.reduced.digits)
      ((Text.ofNat d.reduced.digits).length + d.reduced.exponent)

theorem toText_eq (d : Decimal) : d.toText = signText d.negative ++ unsignedText d := by
  rw [Decimal.toText, unsignedText]
  dsimp only
  split
  · rw [Decimal.negative_reduced]; rfl
  · rw [Decimal.negative_reduced]; rfl

theorem beginsDigit_digitsText {digits : Text} (h : BeginsDigit digits) (point : Int) :
    BeginsDigit (Decimal.digitsText digits point) := by
  obtain ⟨c, rest, rfl, hc⟩ := h
  rw [Decimal.digitsText.eq_def]
  split
  · split
    · exact ⟨'0', _, rfl, rfl⟩
    · next hpoint =>
        obtain ⟨whole, hwhole⟩ := Nat.exists_eq_succ_of_ne_zero (n := point.toNat) (by omega)
        dsimp only
        rw [hwhole]
        split
        · exact ⟨c, _, rfl, hc⟩
        · exact ⟨c, _, rfl, hc⟩
  · cases rest with
    | nil => exact ⟨c, _, rfl, hc⟩
    | cons d rest => exact ⟨c, _, rfl, hc⟩

theorem beginsDigit_unsignedText (d : Decimal) : BeginsDigit (unsignedText d) := by
  rw [unsignedText]
  split
  · exact ⟨'0', _, rfl, rfl⟩
  · exact beginsDigit_digitsText (beginsDigit_ofNat _) _

/-- A decimal is read back in its form with the fewest digits. -/
theorem scalar?_toText (d : Decimal) {rest : Text} (hrest : EndsNumber rest) :
    scalar? (d.toText ++ rest) = some (.decimal d.reduced, rest) := by
  rw [toText_eq, List.append_assoc, scalar?_signed _ ((beginsDigit_unsignedText d).append _),
    unsignedText]
  by_cases hzero : d.digits = 0
  · have hread := unsigned?_decimal d.negative (w := ['0']) (f := ['0']) (e := none)
      (areDigits_zeros 1) (List.cons_ne_nil _ _) (areDigits_zeros 1) (List.cons_ne_nil _ _) hrest
    rw [Decimal.reduced_of_zero rfl] at hread
    rw [Decimal.reduced_of_zero hzero]
    exact hread
  · obtain ⟨k, -, -, hmod⟩ := Decimal.exists_reduced hzero
    have hread := unsigned?_digitsText d.negative hmod d.reduced.exponent hrest
    rw [if_neg (by omega), hread, ← Decimal.negative_reduced]

/-! ### Printable numbers -/

theorem AreDigits.printable {t : Text} (h : AreDigits t) : ArePrintable t := by
  intro c hc
  have hdigit := h c hc
  simp only [Char.isDigit, Bool.and_eq_true, decide_eq_true_eq, ge_iff_le,
    UInt32.le_iff_toNat_le] at hdigit
  change 48 ≤ c.toNat ∧ c.toNat ≤ 57 at hdigit
  exact ⟨by omega, by omega⟩

theorem printable_signText (negative : Bool) : ArePrintable (signText negative) := by
  cases negative with
  | false => decide
  | true => decide

theorem printable_ofInt (n : Int) : ArePrintable (Text.ofInt n) := by
  rw [ofInt_eq, arePrintable_append]
  exact ⟨printable_signText _, (areDigits_ofNat _).printable⟩

theorem printable_exponentText (e : Int) : ArePrintable (Decimal.exponentText e) := by
  have hdigits : ArePrintable (Text.padded 2 e.natAbs) :=
    (areDigits_append.2 ⟨areDigits_zeros _, areDigits_ofNat _⟩).printable
  have hsign : IsPrintable (if e < 0 then '-' else '+') := by
    split
    · decide
    · decide
  exact arePrintable_cons.2 ⟨by decide, arePrintable_cons.2 ⟨hsign, hdigits⟩⟩

theorem printable_digitsText {digits : Text} (h : ArePrintable digits) (point : Int) :
    ArePrintable (Decimal.digitsText digits point) := by
  have hzero : IsPrintable '0' := by decide
  have hpoint : IsPrintable '.' := by decide
  have hzeros : ∀ k, ArePrintable (List.replicate k '0') := fun k => (areDigits_zeros k).printable
  rw [Decimal.digitsText.eq_def]
  split
  · split
    · simp [hzero, hpoint, hzeros, h]
    · dsimp only
      split
      · simp [hzero, hpoint, hzeros, h]
      · have hparts := arePrintable_append.1 ((List.take_append_drop point.toNat digits).symm ▸ h)
        simp [hpoint, hparts]
  · split
    · exact arePrintable_nil
    · next d =>
        exact arePrintable_cons.2 ⟨h d (by simp), printable_exponentText _⟩
    · next d more hmore =>
        have hparts := arePrintable_cons.1 h
        simp [hparts, hpoint, printable_exponentText]

theorem printable_toText (d : Decimal) : ArePrintable d.toText := by
  rw [toText_eq, arePrintable_append, unsignedText]
  refine ⟨printable_signText _, ?_⟩
  split
  · decide
  · exact printable_digitsText (areDigits_ofNat _).printable _

end DocPress.Json
