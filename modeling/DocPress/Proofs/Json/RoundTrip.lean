import DocPress.Proofs.Json.Spelling

/-!
# JSON values that are written and read back

The text of a value is one line of printable ASCII characters (`printable_spelling`), and it is
read back as the same value (`parse_spelling`).  Only the spelling of decimals may differ: what
is read has their fewest digits (`Json.reduced`), which is the same number (`equal_reduced`).
-/

namespace DocPress.Json

mutual

/-- A value with its decimals in their fewest digits. -/
def reduced : Json → Json
  | decimal d => decimal d.reduced
  | array items => array (reducedItems items)
  | object fields => object (reducedFields fields)
  | v => v

/-- Items with their decimals in their fewest digits. -/
def reducedItems : List Json → List Json
  | [] => []
  | v :: more => v.reduced :: reducedItems more

/-- Fields with the decimals of their values in their fewest digits. -/
def reducedFields : List (Text × Json) → List (Text × Json)
  | [] => []
  | (k, v) :: more => (k, v.reduced) :: reducedFields more

end

theorem reducedFields_eq_map (fields : List (Text × Json)) :
    reducedFields fields = fields.map fun f => (f.1, f.2.reduced) := by
  induction fields with
  | nil => rfl
  | cons f fields ih => rw [reducedFields, ih, List.map_cons]

mutual

/-- Two values are equal: decimals if they are the same number, and all others if they have
the same form and equal parts. -/
inductive Equal : Json → Json → Prop
  | null : Equal null null
  | bool (b : Bool) : Equal (bool b) (bool b)
  | int (n : Int) : Equal (int n) (int n)
  | decimal {d e : Decimal} (hsign : d.negative = e.negative) (hvalue : d.value = e.value) :
      Equal (decimal d) (decimal e)
  | nan : Equal nan nan
  | infinity (negative : Bool) : Equal (infinity negative) (infinity negative)
  | text (t : Text) : Equal (text t) (text t)
  | array {items others : List Json} (h : EqualItems items others) :
      Equal (array items) (array others)
  | object {fields others : List (Text × Json)} (h : EqualFields fields others) :
      Equal (object fields) (object others)

/-- Items that are equal one by one. -/
inductive EqualItems : List Json → List Json → Prop
  | nil : EqualItems [] []
  | cons {v w : Json} {items others : List Json} (h : Equal v w) (hmore : EqualItems items others) :
      EqualItems (v :: items) (w :: others)

/-- Fields with the same keys in the same order, and equal values. -/
inductive EqualFields : List (Text × Json) → List (Text × Json) → Prop
  | nil : EqualFields [] []
  | cons {k : Text} {v w : Json} {fields others : List (Text × Json)} (h : Equal v w)
      (hmore : EqualFields fields others) : EqualFields ((k, v) :: fields) ((k, w) :: others)

end

mutual

/-- Fewer digits make no other value. -/
theorem equal_reduced : ∀ v : Json, Equal v v.reduced
  | .null => .null
  | .bool b => .bool b
  | .int n => .int n
  | .decimal d => .decimal d.negative_reduced.symm d.value_reduced.symm
  | .nan => .nan
  | .infinity negative => .infinity negative
  | .text t => .text t
  | .array items => .array (equalItems_reducedItems items)
  | .object fields => .object (equalFields_reducedFields fields)

theorem equalItems_reducedItems : ∀ items : List Json, EqualItems items (reducedItems items)
  | [] => .nil
  | v :: more => .cons (equal_reduced v) (equalItems_reducedItems more)

theorem equalFields_reducedFields : ∀ fields : List (Text × Json),
    EqualFields fields (reducedFields fields)
  | [] => .nil
  | (_, v) :: more => .cons (equal_reduced v) (equalFields_reducedFields more)

end

/-! ### The text of a value -/

mutual

/-- The text of a value is one line of printable characters. -/
theorem printable_spelling : ∀ v : Json, ArePrintable v.spelling
  | .null => by decide
  | .bool true => by decide
  | .bool false => by decide
  | .int n => printable_ofInt n
  | .decimal d => printable_toText d
  | .nan => by decide
  | .infinity true => by decide
  | .infinity false => by decide
  | .text t => printable_quote t
  | .array items => by
      rw [spelling, arePrintable_append, arePrintable_cons]
      exact ⟨⟨by decide, printable_itemsSpelling items⟩, by decide⟩
  | .object fields => by
      rw [spelling, arePrintable_append, arePrintable_cons]
      exact ⟨⟨by decide, printable_fieldsSpelling fields⟩, by decide⟩

theorem printable_itemsSpelling : ∀ items : List Json, ArePrintable (itemsSpelling items)
  | [] => arePrintable_nil
  | [v] => printable_spelling v
  | v :: w :: more => by
      rw [itemsSpelling_cons, arePrintable_append]
      exact ⟨printable_spelling v, arePrintable_cons.2 ⟨by decide,
        arePrintable_cons.2 ⟨by decide, printable_itemsSpelling (w :: more)⟩⟩⟩

theorem printable_fieldsSpelling : ∀ fields : List (Text × Json),
    ArePrintable (fieldsSpelling fields)
  | [] => arePrintable_nil
  | [(k, v)] => by
      rw [fieldsSpelling, arePrintable_append]
      exact ⟨printable_quote k, arePrintable_cons.2 ⟨by decide,
        arePrintable_cons.2 ⟨by decide, printable_spelling v⟩⟩⟩
  | (k, v) :: f :: more => by
      have hrest := printable_fieldsSpelling (f :: more)
      have hcolon : IsPrintable ':' := by decide
      have hcomma : IsPrintable ',' := by decide
      have hspace : IsPrintable ' ' := by decide
      rw [fieldsSpelling_cons]
      simp [printable_quote, printable_spelling v, hrest, hcolon, hcomma, hspace]

end

/-! ### Reading a value -/

/-- A text that begins with neither a blank nor a closing bracket or brace. -/
def BeginsValue (t : Text) : Prop :=
  ∃ c rest, t = c :: rest ∧ isSpace c = false ∧ c ≠ ']' ∧ c ≠ '\x7d'

theorem BeginsValue.skipSpace_eq {t : Text} (h : BeginsValue t) : skipSpace t = t := by
  obtain ⟨c, rest, rfl, hspace, -⟩ := h
  simp [skipSpace, hspace]

theorem BeginsValue.skipSpace_blank {t : Text} (h : BeginsValue t) : skipSpace (' ' :: t) = t :=
  h.skipSpace_eq

/-- What is written for a number begins with a digit or a sign. -/
theorem exists_head_signed (negative : Bool) {t : Text} (h : BeginsDigit t) :
    ∃ c rest, signText negative ++ t = c :: rest ∧ (c.isDigit = true ∨ c = '-') := by
  obtain ⟨c, rest, rfl, hc⟩ := h
  cases negative with
  | false => exact ⟨c, rest, rfl, .inl hc⟩
  | true => exact ⟨'-', c :: rest, rfl, .inr rfl⟩

theorem value?_signed (fuel : Nat) (negative : Bool) {t : Text} (h : BeginsDigit t) :
    value? (fuel + 1) (signText negative ++ t) = scalar? (signText negative ++ t) := by
  obtain ⟨c, rest, heq, hc⟩ := exists_head_signed negative h
  have hne : ∀ d : Char, d.isDigit = false → '-' ≠ d → c ≠ d := by
    intro d hd hminus
    rcases hc with hc | rfl
    · exact ne_of_isDigit hc hd
    · exact hminus
  have hquote := hne '"' rfl (by decide)
  have hbracket := hne '[' rfl (by decide)
  have hbrace := hne '\x7b' rfl (by decide)
  rw [heq]
  simp [value?, hquote, hbracket, hbrace]

theorem beginsValue_cons {c : Char} (h : isSpace c = false ∧ c ≠ ']' ∧ c ≠ '\x7d')
    (rest : Text) : BeginsValue (c :: rest) := ⟨c, rest, rfl, h⟩

theorem beginsValue_signed (negative : Bool) {t : Text} (h : BeginsDigit t) :
    BeginsValue (signText negative ++ t) := by
  obtain ⟨c, rest, heq, hc⟩ := exists_head_signed negative h
  rw [heq]
  rcases hc with hc | rfl
  · have hne := fun d (hd : d.isDigit = false) => ne_of_isDigit (d := d) hc hd
    refine beginsValue_cons ⟨?_, hne _ rfl, hne _ rfl⟩ rest
    simp [isSpace, hne]
  · exact beginsValue_cons (by decide) rest

theorem beginsValue_spelling (v : Json) (rest : Text) : BeginsValue (v.spelling ++ rest) := by
  cases v with
  | int n =>
      rw [spelling, ofInt_eq, List.append_assoc]
      exact beginsValue_signed _ ((beginsDigit_ofNat _).append rest)
  | decimal d =>
      rw [spelling, toText_eq, List.append_assoc]
      exact beginsValue_signed _ ((beginsDigit_unsignedText d).append rest)
  | bool b =>
      cases b with
      | false => exact beginsValue_cons (by decide) _
      | true => exact beginsValue_cons (by decide) _
  | infinity negative =>
      cases negative with
      | false => exact beginsValue_cons (by decide) _
      | true => exact beginsValue_cons (by decide) _
  | _ => exact beginsValue_cons (by decide) _

theorem beginsValue_itemsSpelling (v : Json) (more : List Json) (rest : Text) :
    BeginsValue (itemsSpelling (v :: more) ++ rest) := by
  cases more with
  | nil => exact beginsValue_spelling v rest
  | cons w more =>
      rw [itemsSpelling_cons, List.append_assoc]
      exact beginsValue_spelling v _

/-- What stands behind an item or a field does not go on with a number. -/
theorem endsNumber_cons {c : Char} (h : c = ',' ∨ c = ']' ∨ c = '\x7d') (rest : Text) :
    EndsNumber (c :: rest) := by
  rintro _ ⟨⟩
  rcases h with rfl | rfl | rfl <;> decide

theorem quote_append (t rest : Text) :
    quote t ++ rest = '"' :: (t.flatMap escapeChar ++ '"' :: rest) := by
  simp [quote]

/-- With the fuel that the reader has, a string is read back. -/
theorem string?_body (t rest : Text) :
    string? ((t.flatMap escapeChar ++ '"' :: rest).length + 1)
      (t.flatMap escapeChar ++ '"' :: rest) = some (t, rest) := by
  have hlength := length_le_flatMap t
  refine string?_flatMap ?_ rest
  rw [List.length_append]
  omega

section steps

variable {fuel : Nat} {t rest : Text} {v : Json}

theorem value?_quote (fuel : Nat) (t rest : Text) :
    value? (fuel + 1) (quote t ++ rest) = some (text t, rest) := by
  rw [quote_append]
  simp only [value?, string?_body]
  rfl

theorem value?_array {items : List Json} (ht : BeginsValue t)
    (hread : items? fuel t = some (items, rest)) :
    value? (fuel + 1) ('[' :: t) = some (array items, rest) := by
  have hskip := ht.skipSpace_eq
  obtain ⟨c, u, rfl, -, hbracket, -⟩ := ht
  simp [value?, hskip, hbracket, hread]

theorem value?_object {fields : List (Text × Json)} {k : Text}
    (hread : fields? fuel (quote k ++ t) = some (fields, rest)) :
    value? (fuel + 1) ('\x7b' :: (quote k ++ t)) = some (object fields, rest) := by
  rw [quote_append] at hread ⊢
  have hskip : ∀ u : Text, skipSpace ('"' :: u) = '"' :: u := fun _ => rfl
  simp [value?, hskip, hread]

theorem items?_last (hread : value? fuel t = some (v, ']' :: rest)) :
    items? (fuel + 1) t = some ([v], rest) := by
  simp only [items?, hread, Option.bind_eq_bind, Option.bind_some]
  rfl

theorem items?_more {items : List Json} {more : Text} (hmore : BeginsValue more)
    (hread : value? fuel t = some (v, ',' :: ' ' :: more))
    (hitems : items? fuel more = some (items, rest)) :
    items? (fuel + 1) t = some (v :: items, rest) := by
  have hcomma : skipSpace (',' :: ' ' :: more) = ',' :: ' ' :: more := rfl
  simp [items?, hread, hcomma, hmore.skipSpace_blank, hitems]

theorem fields?_last {k : Text} (ht : BeginsValue t)
    (hread : value? fuel t = some (v, '\x7d' :: rest)) :
    fields? (fuel + 1) (quote k ++ ':' :: ' ' :: t) = some ([(k, v)], rest) := by
  have hcolon : skipSpace (':' :: ' ' :: t) = ':' :: ' ' :: t := rfl
  have hbrace : skipSpace ('\x7d' :: rest) = '\x7d' :: rest := rfl
  rw [quote_append]
  simp only [fields?, string?_body, Option.bind_eq_bind, Option.bind_some, hcolon,
    ht.skipSpace_blank, hread, hbrace]

theorem fields?_more {fields : List (Text × Json)} {k l more : Text} (ht : BeginsValue t)
    (hread : value? fuel t = some (v, ',' :: ' ' :: (quote l ++ more)))
    (hfields : fields? fuel (quote l ++ more) = some (fields, rest)) :
    fields? (fuel + 1) (quote k ++ ':' :: ' ' :: t) = some ((k, v) :: fields, rest) := by
  have hcolon : skipSpace (':' :: ' ' :: t) = ':' :: ' ' :: t := rfl
  have hcomma : skipSpace (',' :: ' ' :: (quote l ++ more)) = ',' :: ' ' :: (quote l ++ more) := rfl
  have hquote : skipSpace (' ' :: (quote l ++ more)) = quote l ++ more := by
    rw [quote_append]
    rfl
  rw [quote_append]
  simp only [fields?, string?_body, Option.bind_eq_bind, Option.bind_some, hcolon,
    ht.skipSpace_blank, hread, hcomma, hquote, hfields]

end steps

/-! ### Reading what is written -/

theorem spelling_array_append (items : List Json) (rest : Text) :
    spelling (array items) ++ rest = '[' :: (itemsSpelling items ++ ']' :: rest) := by
  simp [spelling]

theorem spelling_object_append (fields : List (Text × Json)) (rest : Text) :
    spelling (object fields) ++ rest = '\x7b' :: (fieldsSpelling fields ++ '\x7d' :: rest) := by
  simp [spelling]

theorem itemsSpelling_append (v w : Json) (more : List Json) (rest : Text) :
    itemsSpelling (v :: w :: more) ++ rest =
      spelling v ++ ',' :: ' ' :: (itemsSpelling (w :: more) ++ rest) := by
  simp [itemsSpelling_cons]

theorem fieldsSpelling_singleton_append (k : Text) (v : Json) (rest : Text) :
    fieldsSpelling [(k, v)] ++ rest = quote k ++ ':' :: ' ' :: (spelling v ++ rest) := by
  simp [fieldsSpelling]

theorem fieldsSpelling_append (k : Text) (v : Json) (f : Text × Json) (more : List (Text × Json))
    (rest : Text) :
    fieldsSpelling ((k, v) :: f :: more) ++ rest =
      quote k ++
        ':' :: ' ' :: (spelling v ++ ',' :: ' ' :: (fieldsSpelling (f :: more) ++ rest)) := by
  simp [fieldsSpelling_cons]

theorem exists_fieldsSpelling_append (f : Text × Json) (more : List (Text × Json)) (rest : Text) :
    ∃ t, fieldsSpelling (f :: more) ++ rest = quote f.1 ++ t := by
  cases more with
  | nil => exact ⟨_, fieldsSpelling_singleton_append f.1 f.2 rest⟩
  | cons g more => exact ⟨_, fieldsSpelling_append f.1 f.2 g more rest⟩

theorem value?_int (fuel : Nat) (n : Int) {rest : Text} (hrest : EndsNumber rest) :
    value? (fuel + 1) (spelling (int n) ++ rest) = some (int n, rest) := by
  have hread := scalar?_ofInt n hrest
  rw [ofInt_eq, List.append_assoc] at hread
  rw [spelling, ofInt_eq, List.append_assoc, value?_signed _ _ ((beginsDigit_ofNat _).append rest),
    hread]

theorem value?_decimal (fuel : Nat) (d : Decimal) {rest : Text} (hrest : EndsNumber rest) :
    value? (fuel + 1) (spelling (decimal d) ++ rest) = some (decimal d.reduced, rest) := by
  have hread := scalar?_toText d hrest
  rw [toText_eq, List.append_assoc] at hread
  rw [spelling, toText_eq, List.append_assoc,
    value?_signed _ _ ((beginsDigit_unsignedText d).append rest), hread]

mutual

-- every step of the reader takes a character, so the length of the text is fuel enough; the
-- recursion is on the value, as it is for the printer

/-- A value is read back from its text, whatever stands behind it. -/
theorem value?_spelling : ∀ (v : Json) {fuel : Nat} {rest : Text},
    v.spelling.length < fuel → EndsNumber rest →
      value? fuel (v.spelling ++ rest) = some (v.reduced, rest)
  | _, 0, _, h, _ => absurd h (Nat.not_lt_zero _)
  | .null, _ + 1, _, _, _ => rfl
  | .bool true, _ + 1, _, _, _ => rfl
  | .bool false, _ + 1, _, _, _ => rfl
  | .nan, _ + 1, _, _, _ => rfl
  | .infinity true, _ + 1, _, _, _ => rfl
  | .infinity false, _ + 1, _, _, _ => rfl
  | .int n, fuel + 1, _, _, hrest => value?_int fuel n hrest
  | .decimal d, fuel + 1, _, _, hrest => value?_decimal fuel d hrest
  | .text t, fuel + 1, rest, _, _ => value?_quote fuel t rest
  | .array [], _ + 1, _, _, _ => rfl
  | .object [], _ + 1, _, _, _ => rfl
  | .array (v :: more), fuel + 1, rest, h, _ => by
      have hlength := congrArg List.length (spelling_array_append (v :: more) [])
      simp only [List.append_nil, List.length_cons, List.length_append, List.length_nil] at hlength
      rw [spelling_array_append]
      exact value?_array (beginsValue_itemsSpelling v more _)
        (items?_itemsSpelling v more (by omega))
  | .object (f :: more), fuel + 1, rest, h, _ => by
      have hlength := congrArg List.length (spelling_object_append (f :: more) [])
      simp only [List.append_nil, List.length_cons, List.length_append, List.length_nil] at hlength
      have hread : fields? fuel (fieldsSpelling (f :: more) ++ '\x7d' :: rest) =
          some (reducedFields (f :: more), rest) := fields?_fieldsSpelling f more (by omega)
      obtain ⟨t, ht⟩ := exists_fieldsSpelling_append f more ('\x7d' :: rest)
      rw [ht] at hread
      rw [spelling_object_append, ht]
      exact value?_object hread

theorem items?_itemsSpelling : ∀ (v : Json) (more : List Json) {fuel : Nat} {rest : Text},
    (itemsSpelling (v :: more)).length + 1 < fuel →
      items? fuel (itemsSpelling (v :: more) ++ ']' :: rest) =
        some (reducedItems (v :: more), rest)
  | _, _, 0, _, h => absurd h (Nat.not_lt_zero _)
  | v, [], fuel + 1, rest, h =>
      items?_last (value?_spelling v (Nat.lt_of_succ_lt_succ h) (endsNumber_cons (by simp) rest))
  | v, w :: more, fuel + 1, rest, h => by
      rw [itemsSpelling_cons, List.length_append, List.length_cons, List.length_cons] at h
      rw [itemsSpelling_append]
      exact items?_more (beginsValue_itemsSpelling w more _)
        (value?_spelling v (by omega) (endsNumber_cons (by simp) _))
        (items?_itemsSpelling w more (by omega))

theorem fields?_fieldsSpelling : ∀ (f : Text × Json) (more : List (Text × Json)) {fuel : Nat}
    {rest : Text}, (fieldsSpelling (f :: more)).length + 1 < fuel →
      fields? fuel (fieldsSpelling (f :: more) ++ '\x7d' :: rest) =
        some (reducedFields (f :: more), rest)
  | _, _, 0, _, h => absurd h (Nat.not_lt_zero _)
  | (k, v), [], fuel + 1, rest, h => by
      rw [fieldsSpelling, List.length_append, List.length_cons, List.length_cons] at h
      rw [fieldsSpelling_singleton_append]
      exact fields?_last (beginsValue_spelling v _)
        (value?_spelling v (by omega) (endsNumber_cons (by simp) rest))
  | (k, v), g :: more, fuel + 1, rest, h => by
      rw [fieldsSpelling_cons] at h
      simp only [List.length_append, List.length_cons] at h
      have hfields : fields? fuel (fieldsSpelling (g :: more) ++ '\x7d' :: rest) =
          some (reducedFields (g :: more), rest) := fields?_fieldsSpelling g more (by omega)
      obtain ⟨t, ht⟩ := exists_fieldsSpelling_append g more ('\x7d' :: rest)
      rw [ht] at hfields
      rw [fieldsSpelling_append, ht]
      exact fields?_more (beginsValue_spelling v _)
        (value?_spelling v (by omega) (endsNumber_cons (by simp) _)) hfields

end

/-- What is read from the text of a value is this value, with its decimals in their fewest
digits. -/
theorem parse_spelling (v : Json) : parse v.spelling = some v.reduced := by
  have hread : value? (v.spelling.length + 1) (v.spelling ++ []) = some (v.reduced, []) :=
    value?_spelling v (by omega) nofun
  have hbegins := beginsValue_spelling v []
  rw [List.append_nil] at hread hbegins
  rw [parse, hbegins.skipSpace_eq, hread]
  rfl

end DocPress.Json
