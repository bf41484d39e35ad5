import DocPress.Log.Logger
import DocPress.Proofs.Json.RoundTrip
import DocPress.Proofs.Text.Lines
import Mathlib.Data.List.Nodup

/-!
# Log lines

A record whose fields are within the limits of the printer, and no other, is written as one
line of printable ASCII characters.  Reading the line gives the level, the time, the logger
and the message of the record, its further fields and its failure (`parse_lineAs`), so nothing
that a message or a field holds can break the line or be taken for another field.  So a log
has one line for each record that can be written (`Logger.splitAt_writeAll`).
-/

namespace DocPress

/-- Fields with different keys are found by their keys. -/
theorem Json.field?_of_mem {fields : List (Text × Json)} (hdistinct : (fields.map Prod.fst).Nodup)
    {f : Text × Json} (hf : f ∈ fields) : (Json.object fields).field? f.1 = some f.2 := by
  have hsome : (fields.reverse.find? fun g => g.1 == f.1).isSome := by
    simp only [List.find?_isSome, beq_iff_eq]
    exact ⟨f, List.mem_reverse.2 hf, rfl⟩
  obtain ⟨g, hfind⟩ := Option.isSome_iff_exists.1 hsome
  have hkey : g.1 = f.1 := by simpa using List.find?_some hfind
  have hmem : g ∈ fields := List.mem_reverse.1 (List.mem_of_find?_eq_some hfind)
  have heq : g = f := List.inj_on_of_nodup_map hdistinct hmem hf hkey
  rw [Json.field?, hfind, heq]
  rfl

namespace Log
namespace Record

/-- The keys that a record has of its own. -/
def ownKeys : List Text :=
  ["level".toList, "ts".toList, "logger".toList, "msg".toList, "exc".toList]

/-- The further fields of a record have different keys, and none of the record's own. -/
structure HasFreeKeys (r : Record) : Prop where
  distinct : (r.fields.map Prod.fst).Nodup
  free : ∀ f ∈ r.fields, f.1 ∉ ownKeys

/-- A printer has room for a record, and its further fields are within the limits in there. -/
structure Fits (l : Json.Limits) (r : Record) : Prop where
  room : 0 < l.depth
  fields : ∀ f ∈ r.fields, Json.Fits ⟨l.digits, l.depth - 1⟩ f.2

/-- The fields that every record has. -/
def ownFields (levelName : Text) (stamp : Stamp) (r : Record) : List (Text × Json) :=
  [("level".toList, .text levelName), ("ts".toList, .text stamp.full),
    ("logger".toList, .text r.logger), ("msg".toList, .text r.message)]

/-- The field about the failure of a record, if it has one. -/
def failureFields (r : Record) : List (Text × Json) :=
  match r.failure with
  | some t => [("exc".toList, .text t)]
  | none => []

/-- The fields that the line of a record is read as. -/
def fieldsOfLine (levelName : Text) (stamp : Stamp) (r : Record) : List (Text × Json) :=
  r.ownFields levelName stamp ++ r.fields.map (fun f => (f.1, f.2.reduced)) ++ r.failureFields

/-! ### The fields of a record -/

/-- A field with a new key is added at the end. -/
theorem setField_of_notMem {key : Text} {fields : List (Text × Json)} (value : Json)
    (h : key ∉ fields.map Prod.fst) : setField key value fields = fields ++ [(key, value)] := by
  induction fields with
  | nil => rfl
  | cons f fields ih =>
      rw [List.map_cons, List.mem_cons, not_or] at h
      rw [setField, if_neg (Ne.symm h.1), ih h.2, List.cons_append]

/-- Fields with new keys are added in order. -/
theorem foldl_setField {own fields : List (Text × Json)}
    (hdistinct : ((own ++ fields).map Prod.fst).Nodup) :
    fields.foldl (fun fs f => setField f.1 f.2 fs) own = own ++ fields := by
  induction fields generalizing own with
  | nil => rw [List.foldl_nil, List.append_nil]
  | cons f fields ih =>
      have hnew : f.1 ∉ own.map Prod.fst := by
        rw [List.map_append, List.nodup_append] at hdistinct
        exact fun hmem => hdistinct.2.2 _ hmem _ List.mem_cons_self rfl
      rw [List.append_cons] at hdistinct ⊢
      rw [List.foldl_cons, setField_of_notMem _ hnew]
      exact ih hdistinct

variable {r : Record}

theorem failureFields_sublist (r : Record) :
    (r.failureFields.map Prod.fst).Sublist ["exc".toList] := by
  rw [failureFields]
  cases r.failure with
  | none => exact List.nil_sublist _
  | some t => exact List.Sublist.refl _

/-- All keys of a record are different. -/
theorem HasFreeKeys.nodup_keys (h : r.HasFreeKeys) (levelName : Text) (stamp : Stamp) :
    ((r.ownFields levelName stamp ++ r.fields ++ r.failureFields).map Prod.fst).Nodup := by
  have hall : (ownKeys ++ r.fields.map Prod.fst).Nodup := by
    refine List.nodup_append.2 ⟨by decide, h.distinct, ?_⟩
    rintro key hkey _ hmem rfl
    obtain ⟨f, hf, rfl⟩ := List.mem_map.1 hmem
    exact h.free f hf hkey
  -- the failure stands behind the further fields, though its key is one of the record's own
  have hperm : (ownKeys ++ r.fields.map Prod.fst).Perm
      (ownKeys.take 4 ++ r.fields.map Prod.fst ++ ["exc".toList]) := by
    have hlast : (["exc".toList] ++ r.fields.map Prod.fst).Perm
        (r.fields.map Prod.fst ++ ["exc".toList]) := List.perm_append_comm
    rw [List.append_assoc]
    exact hlast.append_left (ownKeys.take 4)
  rw [List.map_append, List.map_append]
  exact (hperm.nodup_iff.1 hall).sublist
    ((List.Sublist.refl _).append r.failureFields_sublist)

theorem HasFreeKeys.fieldsAs_eq (h : r.HasFreeKeys) (levelName : Text) (stamp : Stamp) :
    r.fieldsAs levelName stamp =
      r.ownFields levelName stamp ++ r.fields ++ r.failureFields := by
  have hkeys := h.nodup_keys levelName stamp
  have hfields : r.fields.foldl (fun fs f => setField f.1 f.2 fs) (r.ownFields levelName stamp) =
      r.ownFields levelName stamp ++ r.fields := by
    rw [List.map_append] at hkeys
    exact foldl_setField (List.nodup_append.1 hkeys).1
  rw [fieldsAs, ← ownFields, hfields]
  rw [failureFields] at hkeys ⊢
  cases hfailure : r.failure with
  | none => rw [List.append_nil]
  | some t =>
      rw [hfailure, List.map_append, List.nodup_append] at hkeys
      exact setField_of_notMem _ fun hmem => hkeys.2.2 _ hmem _ List.mem_cons_self rfl

/-! ### The line of a record -/

/-- What is read from a line has the keys of the record. -/
theorem map_fst_fieldsOfLine (levelName : Text) (stamp : Stamp) (r : Record) :
    (r.fieldsOfLine levelName stamp).map Prod.fst =
      (r.ownFields levelName stamp ++ r.fields ++ r.failureFields).map Prod.fst := by
  simp [fieldsOfLine, Function.comp_def]

theorem reducedFields_eq (levelName : Text) (stamp : Stamp) (r : Record) :
    Json.reducedFields (r.ownFields levelName stamp ++ r.fields ++ r.failureFields) =
      r.fieldsOfLine levelName stamp := by
  have hfailure : r.failureFields.map (fun f => (f.1, f.2.reduced)) = r.failureFields := by
    rw [failureFields]
    cases r.failure with
    | none => rfl
    | some t => rfl
  rw [Json.reducedFields_eq_map, List.map_append, List.map_append, hfailure]
  rfl

/-- The fields of a record are within the limits exactly if its further fields are: all others
are texts. -/
theorem fits_fields_iff {l : Json.Limits} (levelName : Text) (stamp : Stamp) (r : Record) :
    Json.Fits l (.object (r.ownFields levelName stamp ++ r.fields ++ r.failureFields)) ↔
      r.Fits l := by
  rw [Json.fits_object_iff]
  constructor
  · rintro ⟨hroom, hfields⟩
    exact ⟨hroom, fun f hf => hfields f (by simp [hf])⟩
  · rintro ⟨hroom, hfields⟩
    refine ⟨hroom, fun f hf => ?_⟩
    rcases List.mem_append.1 hf with hf | hf
    · rcases List.mem_append.1 hf with hf | hf
      · simp only [ownFields, List.mem_cons, List.not_mem_nil, or_false] at hf
        rcases hf with rfl | rfl | rfl | rfl <;> exact Json.fits_text _ _
      · exact hfields f hf
    · rw [failureFields] at hf
      split at hf
      · obtain rfl := List.mem_singleton.1 hf
        exact Json.fits_text _ _
      · cases hf

/-- A record has a line exactly if it is within the limits, and then that of its fields. -/
theorem HasFreeKeys.lineAs_eq_ok_iff (h : r.HasFreeKeys) {l : Json.Limits} {levelName line : Text}
    {stamp : Stamp} :
    r.lineAs l levelName stamp = .ok line ↔ r.Fits l ∧
      (Json.object (r.ownFields levelName stamp ++ r.fields ++ r.failureFields)).spelling =
        line := by
  rw [lineAs, Json.print_eq_ok_iff, h.fieldsAs_eq, fits_fields_iff]

/-- A record has a line exactly if it is within the limits of the printer.  The line holds
printable ASCII characters only, and is read as an object with the level, the time, the logger
and the message of the record, its further fields and its failure.  Each of them is found by
its key, and what is found for a further field equals what was given. -/
theorem parse_lineAs (l : Json.Limits) (levelName : Text) (stamp : Stamp) (r : Record)
    (h : r.HasFreeKeys) :
    ((∃ line, r.lineAs l levelName stamp = .ok line) ↔ r.Fits l) ∧
    ∀ line, r.lineAs l levelName stamp = .ok line →
      (∀ c ∈ line, 32 ≤ c.toNat ∧ c.toNat < 127) ∧
      Json.parse line = some (.object (r.fieldsOfLine levelName stamp)) ∧
      (∀ f ∈ r.fieldsOfLine levelName stamp,
        (Json.object (r.fieldsOfLine levelName stamp)).field? f.1 = some f.2) ∧
      ∀ f ∈ r.fields, Json.Equal f.2 f.2.reduced := by
  simp only [h.lineAs_eq_ok_iff, exists_and_left, exists_eq', and_true, true_and]
  rintro _ ⟨-, rfl⟩
  refine ⟨Json.printable_spelling _, ?_, fun f hf => ?_, fun f _ => Json.equal_reduced f.2⟩
  · rw [Json.parse_spelling, Json.reduced, reducedFields_eq]
  · refine Json.field?_of_mem ?_ hf
    rw [map_fst_fieldsOfLine]
    exact h.nodup_keys levelName stamp

/-- The limits of a printer that is not told others. -/
def usualLimits : Json.Limits := ⟨4300, 1000⟩

/-- A record with a message of two lines, a character beyond the first 65536 and a nested
field. -/
def wildRecord : Record where
  level := Level.error
  logger := "docsmith".toList
  message := "a \"b\" \\\nc\x7f".toList
  fields := [("deep".toList,
    .array [.object [("😀".toList, .text ['\x00', 'é']), ("x".toList, .decimal ⟨true, 150, -2⟩)],
      .int (-7)])]
  failure := some "Traceback:\n\t1 / 0".toList

theorem fits_wildRecord : wildRecord.Fits usualLimits := by
  refine ⟨by decide, fun f hf => ?_⟩
  obtain rfl := List.mem_singleton.1 hf
  exact ⟨by decide, by decide⟩

/-- All of it is read back, and the decimal without the zero at its end. -/
theorem parse_lineAs_wild :
    wildRecord.HasFreeKeys ∧ ∃ line,
      wildRecord.lineAs usualLimits "ERROR".toList ⟨"12:00:00".toList, "2024-01-02".toList⟩ =
        .ok line ∧
      Json.parse line =
        some (.object [("level".toList, .text "ERROR".toList),
          ("ts".toList, .text "2024-01-02".toList), ("logger".toList, .text "docsmith".toList),
          ("msg".toList, .text "a \"b\" \\\nc\x7f".toList),
          ("deep".toList, .array
            [.object [("😀".toList, .text ['\x00', 'é']), ("x".toList, .decimal ⟨true, 15, -1⟩)],
              .int (-7)]),
          ("exc".toList, .text "Traceback:\n\t1 / 0".toList)]) := by
  have hkeys : wildRecord.HasFreeKeys := ⟨by decide, by decide⟩
  obtain ⟨hline, hread⟩ := parse_lineAs usualLimits "ERROR".toList
    ⟨"12:00:00".toList, "2024-01-02".toList⟩ wildRecord hkeys
  obtain ⟨line, hline⟩ := hline.2 fits_wildRecord
  exact ⟨hkeys, line, hline, (hread line hline).2.1⟩

/-- The least integer of more than 4300 digits. -/
def longInteger : Int := 10 ^ usualLimits.digits

/-- A record with one further field. -/
def withField (v : Json) : Record :=
  ⟨Level.info, "docsmith".toList, "m".toList, [("value".toList, v)], none⟩

/-- Records with this integer, or with a thousand arrays one in the other, have no line, and
there are moments without a date. -/
theorem lineAs_beyond_limits :
    ((withField (.int longInteger)).HasFreeKeys ∧ ∀ levelName stamp line,
      (withField (.int longInteger)).lineAs usualLimits levelName stamp ≠ .ok line) ∧
    ((withField (Json.nested 1000)).HasFreeKeys ∧ ∀ levelName stamp line,
      (withField (Json.nested 1000)).lineAs usualLimits levelName stamp ≠ .ok line) ∧
    Stamp.ofMicros (1000000000000 * 1000000) = .error (.yearOutOfRange 33658) := by
  have hkeys : ∀ v, (withField v).HasFreeKeys := by
    refine fun v => ⟨List.nodup_singleton _, fun f hf => ?_⟩
    obtain rfl := List.mem_singleton.1 hf
    exact (by decide : "value".toList ∉ ownKeys)
  have hfits : ∀ {v levelName stamp line},
      (withField v).lineAs usualLimits levelName stamp = .ok line →
        Json.Fits ⟨usualLimits.digits, 999⟩ v := fun hline =>
    ((hkeys _).lineAs_eq_ok_iff.1 hline).1.fields _ List.mem_cons_self
  refine ⟨⟨hkeys _, fun levelName stamp line hline => ?_⟩,
    ⟨hkeys _, fun levelName stamp line hline => ?_⟩, by decide +kernel⟩
  · exact Json.not_fits_pow _ (hfits hline)
  · have hdepth := (hfits hline).depth
    rw [Json.depth_nested] at hdepth
    exact absurd hdepth (by decide)

/-! ### The lines of a log -/

/-- The line of a record has no line end in it. -/
theorem feed_notMem_of_lineAs {l : Json.Limits} {levelName line : Text} {stamp : Stamp}
    (h : r.lineAs l levelName stamp = .ok line) : '\n' ∉ line := by
  obtain ⟨-, rfl⟩ := Json.print_eq_ok_iff.1 h
  intro hmem
  have hprintable := Json.printable_spelling _ _ hmem
  exact absurd hprintable (by decide)

end Record

/-- A log in JSON has one line for each record that is accepted and that can be written, in
their order. -/
theorem Logger.splitAt_writeAll {limits : Json.Limits} {l : Logger} {colored : Bool}
    (hstream : l.stream = some ⟨.json, colored⟩) {stamp : Stamp} {rs : List Record} {log : Text}
    (hlog : l.writeAll limits stamp rs = .ok log) :
    Text.splitAt '\n' log =
      (rs.filter fun r => owns r.logger && l.accepts r.level).filterMap
        (fun r => (r.toJson limits stamp).toOption) ++ [[]] := by
  induction rs generalizing log with
  | nil =>
      cases hlog
      rfl
  | cons r rs ih =>
      obtain ⟨pieces, hpieces, rfl⟩ := exists_of_map_eq_ok hlog
      rw [List.mapM_cons] at hpieces
      obtain ⟨piece, hpiece, hpieces⟩ := exists_of_bind_eq_ok hpieces
      obtain ⟨others, hothers, hpieces⟩ := exists_of_bind_eq_ok hpieces
      cases hpieces
      have hrest : l.writeAll limits stamp rs = .ok others.flatten := by
        rw [writeAll, hothers]
        rfl
      have ih := ih hrest
      rw [List.flatten_cons, List.filter_cons]
      rw [write, hstream] at hpiece
      dsimp only at hpiece
      split at hpiece
      · next haccepted =>
          rw [if_pos haccepted]
          rw [lineOf] at hpiece
          cases hline : r.toJson limits stamp with
          | ok line =>
              rw [hline] at hpiece
              cases hpiece
              have hfeed := Record.feed_notMem_of_lineAs hline
              rw [List.filterMap_cons_some (by rw [hline]; rfl), List.append_assoc,
                List.singleton_append, Text.splitAt_append_cons, Text.splitAt_of_notMem hfeed, ih]
              rfl
          | error e =>
              rw [hline] at hpiece
              rw [List.filterMap_cons_none (by rw [hline]; rfl)]
              cases e with
              | tooLong => cases hpiece; exact ih
              | tooDeep => cases hpiece
      · next hrefused =>
          cases hpiece
          rw [if_neg hrefused]
          exact ih

end Log
end DocPress
