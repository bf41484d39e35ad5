import DocPress.Json.Printer
import DocPress.Proofs.Fallible
import DocPress.Proofs.Json.Number

/-!
# Spellings of JSON values

Every value has a spelling, and a printer that writes the value writes it so.  Whether it
does is a matter of two numbers of the value alone, how deep it is and how long its integers
are (`Fits`).

The main statement is that a printer writes exactly the values that fit its limits, and these
as they are spelled (`print_eq_ok_iff`).
-/

namespace DocPress.Json

/-! ### Depth and integers -/

mutual

/-- How many arrays and objects stand one in the other. -/
def depth : Json → Nat
  | array items => itemsDepth items + 1
  | object fields => fieldsDepth fields + 1
  | _ => 0

/-- The greatest depth of some items. -/
def itemsDepth : List Json → Nat
  | [] => 0
  | v :: more => max v.depth (itemsDepth more)

/-- The greatest depth of the values of some fields. -/
def fieldsDepth : List (Text × Json) → Nat
  | [] => 0
  | (_, v) :: more => max v.depth (fieldsDepth more)

end

mutual

/-- The integers in a value. -/
def integers : Json → List Int
  | int n => [n]
  | array items => itemsIntegers items
  | object fields => fieldsIntegers fields
  | _ => []

/-- The integers in some items. -/
def itemsIntegers : List Json → List Int
  | [] => []
  | v :: more => v.integers ++ itemsIntegers more

/-- The integers in the values of some fields. -/
def fieldsIntegers : List (Text × Json) → List Int
  | [] => []
  | (_, v) :: more => v.integers ++ fieldsIntegers more

end

/-- The number of digits of an integer. -/
def digitCount (n : Int) : Nat := (Text.ofNat n.natAbs).length

theorem natAbs_lt_of_digitCount_le {n : Int} {k : Nat} (h : digitCount n ≤ k) :
    n.natAbs < 10 ^ k := by
  have hlt := natOfDigits_lt (areDigits_ofNat n.natAbs)
  rw [natOfDigits_ofNat] at hlt
  exact hlt.trans_le (Nat.pow_le_pow_right (by decide) h)

/-- A value is within the limits of a printer. -/
structure Fits (l : Limits) (v : Json) : Prop where
  depth : v.depth ≤ l.depth
  digits : ∀ n ∈ v.integers, digitCount n ≤ l.digits

theorem fieldsDepth_le_iff {fields : List (Text × Json)} {room : Nat} :
    fieldsDepth fields ≤ room ↔ ∀ f ∈ fields, f.2.depth ≤ room := by
  induction fields with
  | nil => simp [fieldsDepth]
  | cons f fields ih => rw [fieldsDepth, Nat.max_le, ih, List.forall_mem_cons]

theorem mem_fieldsIntegers {fields : List (Text × Json)} {n : Int} :
    n ∈ fieldsIntegers fields ↔ ∃ f ∈ fields, n ∈ f.2.integers := by
  induction fields with
  | nil => simp [fieldsIntegers]
  | cons f fields ih => simp [fieldsIntegers, ih]

/-- The least integer with more digits than the limit does not fit. -/
theorem not_fits_pow (l : Limits) : ¬ Fits l (int (10 ^ l.digits)) := by
  intro h
  have hlt := natAbs_lt_of_digitCount_le (h.digits _ List.mem_cons_self)
  have hten : Int.natAbs 10 = 10 := rfl
  rw [Int.natAbs_pow, hten] at hlt
  exact absurd hlt (Nat.lt_irrefl _)

theorem fits_text (l : Limits) (t : Text) : Fits l (text t) :=
  ⟨Nat.zero_le _, by simp [integers]⟩

/-- An object fits if there is room for it and for its values in it. -/
theorem fits_object_iff {l : Limits} {fields : List (Text × Json)} :
    Fits l (object fields) ↔
      0 < l.depth ∧ ∀ f ∈ fields, Fits ⟨l.digits, l.depth - 1⟩ f.2 := by
  constructor
  · intro h
    have hdepth : fieldsDepth fields + 1 ≤ l.depth := by simpa [Json.depth] using h.depth
    refine ⟨by omega, fun f hf => ⟨?_, fun n hn => ?_⟩⟩
    · exact fieldsDepth_le_iff.1 (Nat.le_sub_one_of_lt hdepth) f hf
    · exact h.digits n (by simpa [integers] using mem_fieldsIntegers.2 ⟨f, hf, hn⟩)
  · rintro ⟨hroom, hfields⟩
    refine ⟨?_, fun n hn => ?_⟩
    · have hle := fieldsDepth_le_iff.2 fun f hf => (hfields f hf).depth
      simp only [Json.depth]
      dsimp only at hle
      omega
    · obtain ⟨f, hf, hn⟩ := mem_fieldsIntegers.1 (by simpa [integers] using hn)
      exact (hfields f hf).digits n hn

/-- Nothing in arrays, one in the other. -/
def nested : Nat → Json
  | 0 => null
  | n + 1 => array [nested n]

@[simp] theorem depth_nested (n : Nat) : (nested n).depth = n := by
  induction n with
  | zero => rfl
  | succ n ih => simp [nested, depth, itemsDepth, ih]

/-! ### Spellings -/

mutual

/-- The text of a value on one line. -/
def spelling : Json → Text
  | null => ['n', 'u', 'l', 'l']
  | bool true => ['t', 'r', 'u', 'e']
  | bool false => ['f', 'a', 'l', 's', 'e']
  | int n => Text.ofInt n
  | decimal d => d.toText
  | nan => ['N', 'a', 'N']
  | infinity negative =>
      (if negative then ['-'] else []) ++ ['I', 'n', 'f', 'i', 'n', 'i', 't', 'y']
  | text t => quote t
  | array items => '[' :: itemsSpelling items ++ [']']
  | object fields => '\x7b' :: fieldsSpelling fields ++ ['\x7d']

/-- The texts of items with a comma and a space between them. -/
def itemsSpelling : List Json → Text
  | [] => []
  | [v] => v.spelling
  | v :: more => v.spelling ++ ',' :: ' ' :: itemsSpelling more

/-- The texts of fields with a comma and a space between them. -/
def fieldsSpelling : List (Text × Json) → Text
  | [] => []
  | [(k, v)] => quote k ++ ':' :: ' ' :: v.spelling
  | (k, v) :: more => quote k ++ ':' :: ' ' :: v.spelling ++ ',' :: ' ' :: fieldsSpelling more

end

theorem itemsSpelling_cons (v w : Json) (more : List Json) :
    itemsSpelling (v :: w :: more) = v.spelling ++ ',' :: ' ' :: itemsSpelling (w :: more) := by
  rw [itemsSpelling]
  exact nofun

theorem fieldsSpelling_cons (k : Text) (v : Json) (f : Text × Json) (more : List (Text × Json)) :
    fieldsSpelling ((k, v) :: f :: more) =
      quote k ++ ':' :: ' ' :: v.spelling ++ ',' :: ' ' :: fieldsSpelling (f :: more) := by
  rw [fieldsSpelling]
  exact nofun

/-! ### What is written -/

theorem printInt_eq_ok_iff {digits : Nat} {n : Int} {t : Text} :
    printInt digits n = .ok t ↔ digitCount n ≤ digits ∧ Text.ofInt n = t := by
  rw [printInt, digitCount]
  split
  · next h => simp [Nat.not_le.2 h]
  · next h => simp [Nat.not_lt.1 h]

theorem printItems_cons (digits room : Nat) (v w : Json) (more : List Json) :
    printItems digits room (v :: w :: more) = do
      return (← printIn digits room v) ++ ',' :: ' ' :: (← printItems digits room (w :: more)) := by
  rw [printItems]
  exact nofun

theorem printFields_cons (digits room : Nat) (k : Text) (v : Json) (f : Text × Json)
    (more : List (Text × Json)) :
    printFields digits room ((k, v) :: f :: more) = do
      return quote k ++ ':' :: ' ' :: (← printIn digits room v)
        ++ ',' :: ' ' :: (← printFields digits room (f :: more)) := by
  rw [printFields]
  exact nofun

mutual

-- the recursion is on the value, as it is for the printer; the room shrinks with the depth

theorem printIn_eq_ok_iff {digits : Nat} : ∀ (v : Json) {room : Nat} {t : Text},
    printIn digits room v = .ok t ↔
      (v.depth ≤ room ∧ ∀ n ∈ v.integers, digitCount n ≤ digits) ∧ v.spelling = t
  | .null, _, _ => by simp [printIn, depth, integers, spelling]
  | .bool true, _, _ => by simp [printIn, depth, integers, spelling]
  | .bool false, _, _ => by simp [printIn, depth, integers, spelling]
  | .int n, _, _ => by simp [printIn, printInt_eq_ok_iff, depth, integers, spelling]
  | .decimal d, _, _ => by simp [printIn, depth, integers, spelling]
  | .nan, _, _ => by simp [printIn, depth, integers, spelling]
  | .infinity negative, _, _ => by simp [printIn, depth, integers, spelling]
  | .text t, _, _ => by simp [printIn, depth, integers, spelling]
  | .array items, 0, _ => by simp [printIn, depth]
  | .object fields, 0, _ => by simp [printIn, depth]
  | .array items, room + 1, t => by
      simp only [printIn, bind_eq_ok_iff, pure_eq_ok_iff, printItems_eq_ok_iff items, depth,
        integers, spelling, Nat.add_le_add_iff_right, and_assoc, exists_and_left, exists_eq_left']
  | .object fields, room + 1, t => by
      simp only [printIn, bind_eq_ok_iff, pure_eq_ok_iff, printFields_eq_ok_iff fields, depth,
        integers, spelling, Nat.add_le_add_iff_right, and_assoc, exists_and_left, exists_eq_left']

theorem printItems_eq_ok_iff {digits : Nat} : ∀ (items : List Json) {room : Nat} {t : Text},
    printItems digits room items = .ok t ↔
      (itemsDepth items ≤ room ∧ ∀ n ∈ itemsIntegers items, digitCount n ≤ digits) ∧
        itemsSpelling items = t
  | [], _, _ => by simp [printItems, itemsDepth, itemsIntegers, itemsSpelling]
  | [v], _, _ => by
      simp [printItems, printIn_eq_ok_iff v, itemsDepth, itemsIntegers, itemsSpelling]
  | v :: w :: more, room, t => by
      rw [itemsDepth, itemsIntegers, itemsSpelling_cons, Nat.max_le, List.forall_mem_append,
        and_and_and_comm]
      simp only [printItems_cons, bind_eq_ok_iff, pure_eq_ok_iff, printIn_eq_ok_iff v,
        printItems_eq_ok_iff (w :: more), and_assoc, exists_and_left, exists_eq_left']

theorem printFields_eq_ok_iff {digits : Nat} : ∀ (fields : List (Text × Json)) {room : Nat}
    {t : Text}, printFields digits room fields = .ok t ↔
      (fieldsDepth fields ≤ room ∧ ∀ n ∈ fieldsIntegers fields, digitCount n ≤ digits) ∧
        fieldsSpelling fields = t
  | [], _, _ => by simp [printFields, fieldsDepth, fieldsIntegers, fieldsSpelling]
  | [(k, v)], _, _ => by
      simp only [printFields, bind_eq_ok_iff, pure_eq_ok_iff, printIn_eq_ok_iff v, fieldsDepth,
        fieldsIntegers, fieldsSpelling, Nat.max_zero, List.append_nil, and_assoc, exists_and_left,
        exists_eq_left']
  | (k, v) :: f :: more, room, t => by
      rw [fieldsDepth, fieldsIntegers, fieldsSpelling_cons, Nat.max_le, List.forall_mem_append,
        and_and_and_comm]
      simp only [printFields_cons, bind_eq_ok_iff, pure_eq_ok_iff, printIn_eq_ok_iff v,
        printFields_eq_ok_iff (f :: more), and_assoc, exists_and_left, exists_eq_left']

end

/-- A printer writes a value exactly if it fits, and then as it is spelled. -/
theorem print_eq_ok_iff {l : Limits} {v : Json} {t : Text} :
    print l v = .ok t ↔ Fits l v ∧ v.spelling = t := by
  rw [print, printIn_eq_ok_iff]
  exact ⟨fun h => ⟨⟨h.1.1, h.1.2⟩, h.2⟩, fun h => ⟨⟨h.1.depth, h.1.digits⟩, h.2⟩⟩

end DocPress.Json
