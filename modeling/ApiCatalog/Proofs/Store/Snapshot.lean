import ApiCatalog.Proofs.Document
import ApiCatalog.Proofs.Partition
import ApiCatalog.Proofs.Resource
import ApiCatalog.Store.Snapshot

/-!
# Reading snapshots that were written

A snapshot is read by one function from JSON and from documents, which see the parts of a value
through a `Source`. Main statements: a snapshot is read from its JSON form
(`Snapshot.decode_encode_snapshot`) and from the document that shows it
(`Snapshot.ofDocument?_ofJson`).
-/
namespace ApiCatalog

/-- A member whose value is shown in some form. -/
def shownMember {β : Type} (shown : Json → β) (m : String × Json) : String × β := (m.1, shown m.2)

/-- A source sees in what `shown` makes of a value the parts of that value. -/
structure Source.Sees {β : Type} (source : Source β) (shown : Json → β) : Prop where
  items (items : List Json) : source.items? (shown (.list items)) = some (items.map shown)
  members (members : List (String × Json)) :
    source.members? (shown (.object members)) = some (members.map (shownMember shown))
  partition (p : Partition) : source.partition? (shown (encode p)) = some p
  value {json : Json} (plain : ∀ depth, json.Plain (depth + 4)) :
    source.value? (shown json) = some json

theorem Partition.ofString_path (p : Partition) : (ofString p.path).toOption = some p := by
  rw [ofString_of_isPath p.valid]
  rfl

theorem Source.sees_json (strictness : Strictness) : (Source.json strictness).Sees id where
  items items := by simp [Source.json, Json.items?]
  members members := by
    have same : members.map (shownMember id) = members := List.map_id members
    rw [same]
    rfl
  partition p := p.ofString_path
  value _ := rfl

theorem Source.sees_document : Source.document.Sees Document.ofJson where
  items items := by
    rw [Document.ofJson, Document.ofItems_eq_map]
    rfl
  members members := by
    rw [Document.ofJson, Document.ofMembers_eq_map]
    rfl
  partition p := p.ofString_path
  value plain := Document.value?_ofJson (plain (Document.nestingLimit - 7))

section Objects

variable {α β : Type} {source : Source β} {shown : Json → β} {names : List String}
variable {members : α → Fields} {ofFields? : Strictness → Fields → Option α}

theorem names_shown (list : List (String × Json)) :
    (list.map (shownMember shown)).map Prod.fst = list.map Prod.fst := by
  rw [List.map_map]
  rfl

theorem lookup_shown (list : List (String × Json)) (name : String) :
    (list.map (shownMember shown)).lookup name = (list.lookup name).map shown := by
  induction list with
  | nil => rfl
  | cons m rest ih =>
    obtain ⟨other, value⟩ := m
    cases here : name == other <;> simp [shownMember, List.lookup_cons, here, ih]

/-- An object is read from its members and that of its partition. -/
theorem Source.Sees.placed? (sees : source.Sees shown)
    (recorded : Recorded names members ofFields?) (distinct : ("partition" :: names).Nodup)
    (p : Placed α) : source.placed? names ofFields? (shown (p.encodeWith members)) = some p := by
  obtain ⟨partition, object⟩ := p
  have given : ("partition" :: (members object).map Prod.fst).Nodup :=
    (recorded.names object).symm ▸ distinct
  let shownMembers := (members object).map (shownMember shown)
  have whole : Json.distinct? ("partition" :: names)
      (("partition", shown (encode partition)) :: shownMembers) = some _ :=
    Json.distinct?_eq (by rw [List.map_cons, names_shown]; exact given)
  have place : ((("partition", shown (encode partition)) :: shownMembers).lookup "partition").bind
      source.partition? = some partition := by
    rw [List.lookup_cons_self, Option.bind_some, sees.partition]
  have apart : ∀ m ∈ shownMembers, (m.1 != "partition") = true := by
    intro m inside
    have named := List.mem_map_of_mem (f := Prod.fst) inside
    rw [names_shown] at named
    exact bne_iff_ne.2 fun same => (List.nodup_cons.1 given).1 (same ▸ named)
  have others : (("partition", shown (encode partition)) :: shownMembers).filter
      (·.1 != "partition") = shownMembers := by
    rw [List.filter_cons_of_neg (by simp), List.filter_eq_self.2 apart]
  have values : shownMembers.mapM (fun m =>
      (source.value? m.2).map fun value => (m.1, value)) = some (members object) := by
    refine mapM_map_eq_some fun m inside => ?_
    simp only [shownMember, sees.value fun depth => recorded.plain depth object m inside,
      Option.map_some]
  have seen : source.members? (shown (Placed.encodeWith members ⟨partition, object⟩)) =
      some (("partition", shown (encode partition)) :: shownMembers) :=
    sees.members _
  simp only [Source.placed?, seen, whole, place, others, Option.bind_eq_bind, Option.bind_some,
    Option.pure_def]
  refine Option.bind_eq_some_iff.2 ⟨members object, values, ?_⟩
  rw [recorded.ofFields?, Option.bind_some]

/-- What lists nothing is left out, and read as the empty list. -/
theorem Source.Sees.listOf? (sees : source.Sees shown)
    (recorded : Recorded names members ofFields?) (distinct : ("partition" :: names).Nodup)
    (objects : List (Placed α)) (name : String) : source.listOf? names ofFields?
      (((Snapshot.member name members objects).lookup name).map shown) = some objects := by
  unfold Snapshot.member
  split
  next none => rw [List.isEmpty_iff.1 none]; rfl
  next =>
    have read : ((objects.map (Placed.encodeWith members)).map shown).mapM
        (source.placed? names ofFields?) = some objects := by
      rw [List.map_map]
      exact mapM_map_eq_some fun p _ => sees.placed? recorded distinct p
    rw [List.lookup_cons_self, Option.map_some, Source.listOf?, sees.items, Option.bind_some, read]

end Objects

namespace Snapshot

/-- The members of the wire form. -/
def members (s : Snapshot) : List (String × Json) :=
  member "entries" CatalogEntry.members s.entries ++ member "exports" ApiExport.members s.exports ++
    member "bindings" ApiBinding.members s.bindings

section Member

variable {α : Type} {name other : String} {parts : α → List (String × Json)}
variable {objects : List (Placed α)}

theorem names_member : ((member name parts objects).map Prod.fst).Sublist [name] := by
  unfold member
  split <;> simp

theorem lookup_member_ne (apart : other ≠ name) :
    (member name parts objects).lookup other = none := by
  have differs : (other == name) = false := beq_eq_false_iff_ne.2 apart
  unfold member
  split <;> simp [List.lookup_cons, differs]

end Member

theorem names_members (s : Snapshot) : (s.members.map Prod.fst).Sublist fields := by
  simp only [members, List.map_append]
  exact (names_member.append names_member).append names_member

theorem ofMembers?_shown {β : Type} {source : Source β} {shown : Json → β}
    (sees : source.Sees shown) (s : Snapshot) :
    ofMembers? source (s.members.map (shownMember shown)) = some s := by
  have entries : s.members.lookup "entries" =
      (member "entries" CatalogEntry.members s.entries).lookup "entries" := by
    simp [members, List.lookup_append, lookup_member_ne]
  have exports : s.members.lookup "exports" =
      (member "exports" ApiExport.members s.exports).lookup "exports" := by
    simp [members, List.lookup_append, lookup_member_ne]
  have bindings : s.members.lookup "bindings" =
      (member "bindings" ApiBinding.members s.bindings).lookup "bindings" := by
    simp [members, List.lookup_append, lookup_member_ne]
  simp only [ofMembers?, lookup_shown, entries, exports, bindings,
    sees.listOf? CatalogEntry.recorded (by decide), sees.listOf? ApiExport.recorded (by decide),
    sees.listOf? ApiBinding.recorded (by decide), Option.bind_eq_bind, Option.bind_some,
    Option.pure_def]

theorem distinct?_shown {β : Type} (shown : Json → β) (s : Snapshot) :
    Json.distinct? fields (s.members.map (shownMember shown)) =
      some (s.members.map (shownMember shown)) :=
  Json.distinct?_eq (names_shown s.members ▸ s.names_members.nodup (by decide))

/-- A snapshot is read from the document that shows it. -/
theorem ofDocument?_ofJson (s : Snapshot) : ofDocument? (Document.ofJson (encode s)) = some s := by
  have written : (Document.ofJson (encode s)).members? =
      some (s.members.map (shownMember Document.ofJson)) :=
    Source.sees_document.members s.members
  rw [ofDocument?, written, Option.bind_eq_bind, Option.bind_some, distinct?_shown,
    Option.bind_some, ofMembers?_shown Source.sees_document]

/-- A snapshot is read from its wire form. -/
theorem decode_encode_snapshot (strictness : Strictness) (s : Snapshot) :
    decode strictness (encode s) = some s := by
  have read := ofMembers?_shown (Source.sees_json strictness) s
  have whole := distinct?_shown id s
  have same : s.members.map (shownMember id) = s.members := List.map_id s.members
  rw [same] at read whole
  change (Json.distinct? fields s.members).bind _ = _
  rw [whole, Option.bind_some, read]

theorem plain_member {α : Type} {names : List String} {members : α → Fields}
    {ofFields? : Strictness → Fields → Option α} (recorded : Recorded names members ofFields?)
    (depth : Nat) (name : String) (objects : List (Placed α)) :
    Json.PlainMembers (depth + 6) (member name members objects) := by
  unfold member
  split
  · exact .nil
  · refine .cons (.list fun item listed => ?_) .nil
    obtain ⟨placed, -, rfl⟩ := List.mem_map.1 listed
    exact Json.PlainMembers.object (.cons (.text _) (recorded.plain depth placed.object))

instance : LawfulWire Snapshot 7 where
  decode_encode := decode_encode_snapshot
  plain depth s := Json.PlainMembers.object <|
    ((plain_member CatalogEntry.recorded depth "entries" s.entries).append
      (plain_member ApiExport.recorded depth "exports" s.exports)).append
      (plain_member ApiBinding.recorded depth "bindings" s.bindings)

end Snapshot

end ApiCatalog
