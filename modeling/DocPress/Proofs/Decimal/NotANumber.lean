import DocPress.Decimal.Reader
import DocPress.Proofs.Text.Case
import Mathlib

/-!
# Values that are no number

A double is at most zero, greater than zero, or no number at all, and only in the last case
do both comparisons with zero fail.  Rounding a decimal never gives such a value, so a text
gives one only if it spells it (`isNaN_of_float?`).
-/

namespace DocPress.Decimal

open Float.Model

/-! ### Comparisons with zero -/

theorem le_iff_unpack {x y : Float} : x ≤ y ↔ x.toModel.unpack.le y.toModel.unpack = true := by
  change decide (x.toModel ≤ y.toModel) = true ↔ _
  rw [decide_eq_true_iff]
  rfl

theorem lt_iff_unpack {x y : Float} : x < y ↔ x.toModel.unpack.lt y.toModel.unpack = true := by
  change decide (x.toModel < y.toModel) = true ↔ _
  rw [decide_eq_true_iff]
  rfl

theorem isNaN_eq_unpack (x : Float) : x.isNaN = x.toModel.unpack.isNaN := rfl

theorem unpack_zero : (0 : Float).toModel.unpack = .zero .positive := rfl

theorem zero_lt_iff (x : Float) : 0 < x ↔ ¬ x ≤ 0 ∧ x.isNaN = false := by
  rw [le_iff_unpack, lt_iff_unpack, isNaN_eq_unpack, unpack_zero]
  cases x.toModel.unpack with
  | infinity s => cases s <;> decide
  | notANumber => decide
  | zero s => cases s <;> decide
  | finite s m e hm =>
      cases s <;> simp [UnpackedFloat.le, UnpackedFloat.lt, UnpackedFloat.compare,
        UnpackedFloat.isNaN]

theorem zero_le_iff (x : Float) : 0 ≤ x ↔ ¬ x < 0 ∧ x.isNaN = false := by
  rw [le_iff_unpack, lt_iff_unpack, isNaN_eq_unpack, unpack_zero]
  cases x.toModel.unpack with
  | infinity s => cases s <;> decide
  | notANumber => decide
  | zero s => cases s <;> decide
  | finite s m e hm =>
      cases s <;> simp [UnpackedFloat.le, UnpackedFloat.lt, UnpackedFloat.compare,
        UnpackedFloat.isNaN]

/-! ### Operations that give a number -/

theorem isNaN_packComponents {sign : UnpackedFloat.Sign} {exponent : BitVec 11}
    {mantissa : BitVec 52} (h : exponent ≠ -1#11) :
    (UnpackedFloat.unpack .binary64
      (UnpackedFloat.packComponents .binary64 sign exponent mantissa)).isNaN = false := by
  rw [UnpackedFloat.unpack]
  simp only [UnpackedFloat.unpackExponent_packComponents,
    UnpackedFloat.unpackMantissa_packComponents, if_neg h]
  split
  · split <;> rfl
  · rfl

/-- Packing keeps what is no number, and nothing else becomes so. -/
theorem isNaN_unpack_pack (u : UnpackedFloat) :
    (UnpackedFloat.unpack .binary64 (UnpackedFloat.pack .binary64 u)).isNaN = u.isNaN := by
  cases u with
  | notANumber => rfl
  | infinity s => cases s <;> rfl
  | zero s => cases s <;> rfl
  | finite s m e hm =>
      rw [UnpackedFloat.pack]
      simp only
      split
      · cases s <;> rfl
      · next hlarge =>
        split
        · refine isNaN_packComponents fun heq => ?_
          have hbits := congrArg BitVec.toNat heq
          have hones : (-1#11).toNat = 2047 := rfl
          rw [BitVec.toNat_ofNat, hones] at hbits
          omega
        · exact isNaN_packComponents (by decide)

theorem isNaN_roundWithAccuracy (spec : Format) (s : UnpackedFloat.Sign) (m : Nat)
    (e : Int) (a : UnpackedFloat.Accuracy) :
    (UnpackedFloat.roundWithAccuracy spec s m e a).isNaN = false := by
  rw [UnpackedFloat.roundWithAccuracy]
  simp only
  split <;> rfl

/-- An unpacked double that is neither zero nor infinite nor undefined. -/
def isNonzero : UnpackedFloat → Bool
  | .finite .. => true
  | _ => false

theorem isNaN_mul {u v : UnpackedFloat} (hu : u.isNaN = false) (hv : isNonzero v = true) :
    (UnpackedFloat.mul .binary64 u v).isNaN = false := by
  cases v with
  | finite =>
      cases u with
      | notANumber => cases hu
      | infinity => rfl
      | zero => rfl
      | finite => exact isNaN_roundWithAccuracy _ _ _ _ _
  | _ => cases hv

theorem isNaN_div {u v : UnpackedFloat} (hu : u.isNaN = false) (hv : isNonzero v = true) :
    (UnpackedFloat.div .binary64 u v).isNaN = false := by
  cases v with
  | finite =>
      cases u with
      | notANumber => cases hu
      | infinity => rfl
      | zero => rfl
      | finite => exact isNaN_roundWithAccuracy _ _ _ _ _
  | _ => cases hv

theorem isNaN_unpackedOfScientific (m : Nat) (e : Int) :
    (UnpackedFloat.ofScientific .binary64 m e).isNaN = false := by
  rw [UnpackedFloat.ofScientific]
  split
  · rfl
  split
  · rfl
  split
  · rfl
  split
  · exact isNaN_mul rfl rfl
  · exact isNaN_div rfl rfl

theorem isNaN_ofNat (n : Nat) : (UnpackedFloat.ofNat .binary64 n).isNaN = false := by
  rw [UnpackedFloat.ofNat, UnpackedFloat.ofInt, UnpackedFloat.normalize]
  split
  · exact isNaN_roundWithAccuracy _ _ _ _ _
  · rfl
  · exact isNaN_roundWithAccuracy _ _ _ _ _

theorem isNonzero_powerOfTen : ∀ i : Fin 23,
    isNonzero (Float.exactlyRepresentablePowersOfTen[i]).toModel.unpack = true := by
  decide

theorem isNaN_ofScientific (m : Nat) (s : Bool) (e : Nat) :
    (Float.ofScientific m s e).isNaN = false := by
  rw [Float.ofScientific]
  split
  · next h =>
      have hpower := isNonzero_powerOfTen ⟨e, Nat.lt_succ_of_le h.2⟩
      have hnat : (UInt64.toFloat m.toUInt64).toModel.unpack.isNaN = false :=
        (isNaN_unpack_pack _).trans (isNaN_ofNat _)
      cases s with
      | true => exact (isNaN_unpack_pack _).trans (isNaN_div hnat hpower)
      | false => exact (isNaN_unpack_pack _).trans (isNaN_mul hnat hpower)
  · exact (isNaN_unpack_pack _).trans (isNaN_unpackedOfScientific _ _)

theorem isNaN_neg (x : Float) : (-x).isNaN = x.isNaN := by
  refine (isNaN_unpack_pack _).trans ?_
  rw [isNaN_eq_unpack]
  cases x.toModel.unpack <;> rfl

/-- The double nearest to a decimal is a number, or infinite. -/
theorem isNaN_toFloat (d : Decimal) : d.toFloat.isNaN = false := by
  have hzero : (0.0 : Float).isNaN = false := by decide
  have hinfinity : (1.0 / 0.0 : Float).isNaN = false := by decide
  simp only [toFloat, apply_ite Float.isNaN, isNaN_neg, isNaN_ofScientific, hzero, hinfinity,
    ite_self]

/-! ### Texts that spell no number -/

/-- The text of a number in plain form, without the blanks around it. -/
def bare (t : Text) : Text :=
  (((plainForm t).dropWhile isNumberBlank).reverse.dropWhile isNumberBlank).reverse

/-- The words for the value that is no number, in lower case. -/
def nanWords : List Text := ["nan".toList, "-nan".toList, "+nan".toList]

/-- A text that spells the value that is no number. -/
def SpellsNaN (t : Text) : Prop := (bare t).map Char.toLower ∈ nanWords

instance (t : Text) : Decidable (SpellsNaN t) := inferInstanceAs (Decidable (_ ∈ nanWords))

theorem isNaN_of_unsignedFloat? {t : Text} {x : Float} (h : unsignedFloat? t = some x) :
    x.isNaN = true ↔ t.map Char.toLower = "nan".toList := by
  rw [unsignedFloat?] at h
  simp only [Bool.or_eq_true, decide_eq_true_eq] at h
  split at h
  · next hword =>
      have hnan : t.map Char.toLower ≠ "nan".toList := by
        rcases hword with hword | hword <;> rw [hword] <;> decide
      cases h
      simp only [hnan, iff_false]
      decide
  split at h
  · next hword =>
      cases h
      simp only [hword, iff_true]
      decide
  · next hword =>
      obtain ⟨d, -, rfl⟩ := Option.map_eq_some_iff.1 h
      rw [isNaN_toFloat]
      exact iff_of_false Bool.false_ne_true hword

/-- A text of a number loses underscores only if it has digits. -/
theorem eq_of_withoutUnderscores? {before : Char} {t u : Text}
    (h : withoutUnderscores? before t = some u) : u = t ∨ ∃ c ∈ u, c.isDigit = true := by
  induction t generalizing before u with
  | nil =>
      cases h
      exact .inl rfl
  | cons c t ih =>
      rw [withoutUnderscores?] at h
      split at h
      · next hc =>
          rw [Option.ite_none_right_eq_some] at h
          obtain ⟨hdigits, h⟩ := h
          cases t with
          | nil => simp at hdigits
          | cons d t =>
              have hd : d.isDigit = true := by simpa using (Bool.and_eq_true_iff.1 hdigits).2
              have hne : d ≠ '_' := by
                rintro rfl
                exact absurd hd (by decide)
              rw [withoutUnderscores?, if_neg hne] at h
              obtain ⟨v, -, rfl⟩ := Option.map_eq_some_iff.1 h
              exact .inr ⟨d, List.mem_cons_self, hd⟩
      · obtain ⟨v, hv, rfl⟩ := Option.map_eq_some_iff.1 h
        rcases ih hv with rfl | ⟨d, hd, hdigit⟩
        · exact .inl rfl
        · exact .inr ⟨d, List.mem_cons_of_mem c hd, hdigit⟩

theorem withoutUnderscores?_eq_self {before : Char} {t : Text} (h : '_' ∉ t) :
    withoutUnderscores? before t = some t := by
  induction t generalizing before with
  | nil => rfl
  | cons c t ih =>
      rw [List.mem_cons, not_or] at h
      rw [withoutUnderscores?, if_neg (Ne.symm h.1), ih h.2]
      rfl

/-- The characters of the words for no number, in any case. -/
def nanChars : List Char := ['n', 'a', 'N', 'A', '-', '+']

theorem mem_nanChars {c : Char} (h : c.toLower ∈ ['n', 'a', '-', '+']) : c ∈ nanChars := by
  have hsmall : ∀ n < 128, (Char.ofNat n).toLower ∈ ['n', 'a', '-', '+'] →
      Char.ofNat n ∈ nanChars := by decide
  by_cases hc : c.toNat < 128
  · have hchar := hsmall c.toNat hc
    rw [Char.ofNat_toNat] at hchar
    exact hchar h
  · rw [Text.toLower_eq_self (by omega)] at h
    simp only [List.mem_cons, List.not_mem_nil, or_false] at h
    rcases h with rfl | rfl | rfl | rfl <;> decide

theorem mem_nanChars_of_mem {u : Text} (h : u.map Char.toLower ∈ nanWords) {c : Char}
    (hc : c ∈ u) : c ∈ nanChars := by
  have hchars : ∀ w ∈ nanWords, w ⊆ ['n', 'a', '-', '+'] := by
    simp [nanWords]
  exact mem_nanChars (hchars _ h (List.mem_map_of_mem hc))

/-- The sign of a word for no number, taken off. -/
theorem cons_mem_nanWords {c : Char} {u : Text} (hc : c = '-' ∨ c = '+') :
    (c :: u).map Char.toLower ∈ nanWords ↔ u.map Char.toLower = "nan".toList := by
  rcases hc with rfl | rfl
  · simp [nanWords]
  · simp [nanWords]

theorem mem_nanWords_iff {u : Text} (hminus : ∀ v, u ≠ '-' :: v) (hplus : ∀ v, u ≠ '+' :: v) :
    u.map Char.toLower ∈ nanWords ↔ u.map Char.toLower = "nan".toList := by
  refine ⟨fun h => ?_, fun h => by rw [h]; decide⟩
  cases u with
  | nil => exact absurd h (by decide)
  | cons c u =>
      have hc := mem_nanChars_of_mem h List.mem_cons_self
      have hm : c ≠ '-' := fun hc => hminus u (by rw [hc])
      have hp : c ≠ '+' := fun hc => hplus u (by rw [hc])
      simp only [nanChars, List.mem_cons, List.not_mem_nil, or_false, hm, hp] at hc
      have hletter : c.toLower = 'n' ∨ c.toLower = 'a' := by
        rcases hc with rfl | rfl | rfl | rfl <;> decide
      simp only [nanWords, List.mem_cons, List.not_mem_nil, or_false] at h
      rcases h with h | h | h
      · exact h
      · rw [(List.cons.inj h).1] at hletter
        exact absurd hletter (by decide)
      · rw [(List.cons.inj h).1] at hletter
        exact absurd hletter (by decide)

theorem isNaN_of_float? {t : Text} {x : Float} (h : float? t = some x) :
    x.isNaN = true ↔ SpellsNaN t := by
  obtain ⟨u, hu, h⟩ := Option.bind_eq_some_iff.1 h
  change withoutUnderscores? ' ' (bare t) = some u at hu
  have hnan : x.isNaN = true ↔ u.map Char.toLower ∈ nanWords := by
    split at h
    · next v =>
        obtain ⟨y, hy, rfl⟩ := Option.map_eq_some_iff.1 h
        rw [isNaN_neg, isNaN_of_unsignedFloat? hy, cons_mem_nanWords (.inl rfl)]
    · next v => rw [isNaN_of_unsignedFloat? h, cons_mem_nanWords (.inr rfl)]
    · next hminus hplus => rw [isNaN_of_unsignedFloat? h, mem_nanWords_iff hminus hplus]
  rw [hnan, SpellsNaN]
  constructor
  · intro hword
    rcases eq_of_withoutUnderscores? hu with rfl | ⟨c, hc, hdigit⟩
    · exact hword
    · have hdigits : ∀ d ∈ nanChars, d.isDigit = false := by
        simp [nanChars, Char.isDigit]
      rw [hdigits c (mem_nanChars_of_mem hword hc)] at hdigit
      cases hdigit
  · intro hword
    have hunderscore : '_' ∉ bare t := fun hmem =>
      absurd (mem_nanChars_of_mem hword hmem) (by decide)
    rw [withoutUnderscores?_eq_self hunderscore] at hu
    cases hu
    exact hword

end DocPress.Decimal
