import ApiCatalog.Proofs.Json.Wire
import ApiCatalog.Proofs.Time.Rfc3339
import ApiCatalog.Resource

/-!
# Reading resources that were written

The wire forms of resources are lawful, from conditions to whole objects. A record is read field by
field: each field is written under a name of its own, or left out where the reader supplies the same
value. Main statements: catalog entries, exports and bindings are read from the members that are
written (`CatalogEntry.recorded`, `ApiExport.recorded`, `ApiBinding.recorded`).
-/
namespace ApiCatalog

section Scalars

instance : LawfulWire Instant 0 where
  decode_encode strictness t := by
    have text : Json.text? (encode t) = some t.toText := rfl
    have read : decode strictness (encode t) = (Json.text? (encode t)).bind Instant.ofText? := rfl
    rw [read, text, Option.bind_some, t.ofText?_toText]
  plain _ t := .text t.toText

instance : LawfulWire ConditionStatus 0 where
  decode_encode _ status := by cases status <;> rfl
  plain _ status := .text status.display

instance : LawfulWire Severity 0 where
  decode_encode _ severity := by cases severity <;> rfl
  plain _ severity := .text severity.name

instance : LawfulWire BindingPhase 0 where
  decode_encode _ phase := by cases phase <;> rfl
  plain _ phase := .text phase.name

end Scalars

section Metadata

namespace ObjectMeta

/-- The members of the wire form. -/
def members (m : ObjectMeta) : Fields :=
  Fields.emit "name" m.name (m.name == "") ++
    Fields.emit "generateName" m.generateName (m.generateName == "") ++
    Fields.emit "namespace" m.nameSpace m.nameSpace.isNone ++
    [("resourceVersion", encode m.version)]

theorem names_members (m : ObjectMeta) : (m.members.map Prod.fst).Sublist
    ["name", "generateName", "namespace", "resourceVersion"] := by
  simp only [members, List.map_append]
  exact ((Fields.names_emit.append Fields.names_emit).append Fields.names_emit).append (.refl _)

theorem plain_members (depth : Nat) (m : ObjectMeta) : Json.PlainMembers depth m.members :=
  (((Fields.plain_emit (LawfulWire.plain depth m.name)).append
    (Fields.plain_emit (LawfulWire.plain depth m.generateName))).append
    (Fields.plain_emit (LawfulWire.plain depth m.nameSpace))).append
    (.cons (LawfulWire.plain depth m.version) .nil)

end ObjectMeta

instance : LawfulWire ObjectMeta 1 where
  decode_encode strictness m := by
    have name : Fields.orElse strictness m.members "name" "" = some m.name :=
      Fields.orElse_eq (m.name == "") (by simp [ObjectMeta.members]) (by simp)
    have stem : Fields.orElse strictness m.members "generateName" "" = some m.generateName :=
      Fields.orElse_eq (m.generateName == "") (by simp [ObjectMeta.members]) (by simp)
    have space : Fields.orElse strictness m.members "namespace" none = some m.nameSpace :=
      Fields.orElse_eq m.nameSpace.isNone (by simp [ObjectMeta.members]) (by simp)
    have version : Fields.orElse strictness m.members "resourceVersion" 0 = some m.version :=
      Fields.orElse_eq false (by simp [ObjectMeta.members]) (by simp)
    change (do
      let fields ← Json.record? _ (.object m.members)
      _) = _
    simp only [Json.record?_object (m.names_members.nodup (by decide)), Option.bind_eq_bind,
      Option.bind_some, name, stem, space, version, Option.pure_def]
  plain depth m := (m.plain_members depth).object

end Metadata

section References

instance : LawfulWire GroupResource 1 where
  decode_encode _ _ := rfl
  plain depth r := Json.PlainMembers.object <|
    .cons (LawfulWire.plain depth r.group) <| .cons (LawfulWire.plain depth r.resource) .nil

instance : LawfulWire ExportReference 2 where
  decode_encode _ _ := rfl
  plain depth r :=
    have workspace : Json.PlainMembers depth
        [("path", encode r.path), ("exportName", encode r.exportName)] :=
      .cons (LawfulWire.plain depth r.path) <| .cons (LawfulWire.plain depth r.exportName) .nil
    Json.PlainMembers.object (.cons workspace.object .nil)

namespace PermissionClaim

/-- The members of the wire form. -/
def members (c : PermissionClaim) : Fields :=
  Fields.emit "group" c.group (c.group == "") ++ [("resource", encode c.resource)] ++
    Fields.emit "identityHash" c.identityHash (c.identityHash == "")

theorem names_members (c : PermissionClaim) :
    (c.members.map Prod.fst).Sublist ["group", "resource", "identityHash"] := by
  simp only [members, List.map_append]
  exact (Fields.names_emit.append (.refl _)).append Fields.names_emit

end PermissionClaim

instance : LawfulWire PermissionClaim 1 where
  decode_encode strictness c := by
    have group : Fields.orElse strictness c.members "group" "" = some c.group :=
      Fields.orElse_eq (c.group == "") (by simp [PermissionClaim.members]) (by simp)
    have resource : Fields.required strictness c.members "resource" = some c.resource :=
      Fields.required_eq (by simp [PermissionClaim.members])
    have hash : Fields.orElse strictness c.members "identityHash" "" = some c.identityHash :=
      Fields.orElse_eq (c.identityHash == "") (by simp [PermissionClaim.members]) (by simp)
    change (do
      let fields ← Json.record? _ (.object c.members)
      _) = _
    simp only [Json.record?_object (c.names_members.nodup (by decide)), Option.bind_eq_bind,
      Option.bind_some, group, resource, hash, Option.pure_def]
  plain depth c := Json.PlainMembers.object <|
    ((Fields.plain_emit (LawfulWire.plain depth c.group)).append
      (.cons (LawfulWire.plain depth c.resource) .nil)).append
      (Fields.plain_emit (LawfulWire.plain depth c.identityHash))

end References

section Statuses

namespace Condition

/-- The members of the wire form. -/
def members (c : Condition) : Fields :=
  [("type", encode c.type), ("status", encode c.status), ("severity", encode c.severity)] ++
    Fields.emit "reason" c.reason c.reason.isNone ++
    Fields.emit "message" c.message c.message.isNone ++
    [("lastTransitionTime", encode c.lastTransition)]

theorem names_members (c : Condition) : (c.members.map Prod.fst).Sublist
    ["type", "status", "severity", "reason", "message", "lastTransitionTime"] := by
  simp only [members, List.map_append]
  exact (((List.Sublist.refl _).append Fields.names_emit).append Fields.names_emit).append (.refl _)

end Condition

instance : LawfulWire Condition 1 where
  decode_encode strictness c := by
    have type : Fields.required strictness c.members "type" = some c.type :=
      Fields.required_eq (by simp [Condition.members])
    have status : Fields.required strictness c.members "status" = some c.status :=
      Fields.required_eq (by simp [Condition.members])
    have severity : Fields.orElse strictness c.members "severity" .unset = some c.severity :=
      Fields.orElse_eq false (by simp [Condition.members]) (by simp)
    have reason : Fields.orElse strictness c.members "reason" none = some c.reason :=
      Fields.orElse_eq c.reason.isNone (by simp [Condition.members]) (by simp)
    have message : Fields.orElse strictness c.members "message" none = some c.message :=
      Fields.orElse_eq c.message.isNone (by simp [Condition.members]) (by simp)
    have time : Fields.required strictness c.members "lastTransitionTime" = some c.lastTransition :=
      Fields.required_eq (by simp [Condition.members])
    change (do
      let fields ← Json.record? _ (.object c.members)
      _) = _
    simp only [Json.record?_object (c.names_members.nodup (by decide)), Option.bind_eq_bind,
      Option.bind_some, type, status, severity, reason, message, time, Option.pure_def]
  plain depth c :=
    have first : Json.PlainMembers depth
        [("type", encode c.type), ("status", encode c.status), ("severity", encode c.severity)] :=
      .cons (LawfulWire.plain depth c.type) <| .cons (LawfulWire.plain depth c.status) <|
        .cons (LawfulWire.plain depth c.severity) .nil
    Json.PlainMembers.object <|
      ((first.append (Fields.plain_emit (LawfulWire.plain depth c.reason))).append
        (Fields.plain_emit (LawfulWire.plain depth c.message))).append
        (.cons (LawfulWire.plain depth c.lastTransition) .nil)

instance : LawfulWire Conditions 2 where
  decode_encode strictness cs := by
    change (decode strictness (encode cs.slots)).map _ = _
    rw [decode_encode, Option.map_some]
  plain depth cs := LawfulWire.plain depth cs.slots

namespace EntryStatus

/-- The members of the wire form. -/
def members (s : EntryStatus) : Fields :=
  Fields.emit "exportPermissionClaims" s.claims s.claims.isEmpty ++
    Fields.emit "resources" s.resources s.resources.isEmpty ++
    Fields.emit "conditions" s.conditions s.conditions.slots.isEmpty

theorem names_members (s : EntryStatus) :
    (s.members.map Prod.fst).Sublist ["exportPermissionClaims", "resources", "conditions"] := by
  simp only [members, List.map_append]
  exact (Fields.names_emit.append Fields.names_emit).append Fields.names_emit

end EntryStatus

instance : LawfulWire EntryStatus 3 where
  decode_encode strictness s := by
    have claims : Fields.orElse strictness s.members "exportPermissionClaims" [] = some s.claims :=
      Fields.orElse_eq s.claims.isEmpty (by simp [EntryStatus.members]) (by simp)
    have resources : Fields.orElse strictness s.members "resources" [] = some s.resources :=
      Fields.orElse_eq s.resources.isEmpty (by simp [EntryStatus.members]) (by simp)
    have conditions : Fields.orElse strictness s.members "conditions" .empty = some s.conditions :=
      Fields.orElse_eq s.conditions.slots.isEmpty (by simp [EntryStatus.members])
        fun none => congrArg Conditions.mk (List.isEmpty_iff.1 none)
    change (do
      let fields ← Json.record? _ (.object s.members)
      _) = _
    simp only [Json.record?_object (s.names_members.nodup (by decide)), Option.bind_eq_bind,
      Option.bind_some, claims, resources, conditions, Option.pure_def]
  plain depth s := Json.PlainMembers.object <|
    ((Fields.plain_emit (LawfulWire.plain depth s.claims)).append
      (Fields.plain_emit (LawfulWire.plain depth s.resources))).append
      (Fields.plain_emit (LawfulWire.plain depth s.conditions))

end Statuses

section Objects

/-- An object is read from its members, which have different names and are plain. -/
structure Recorded {α : Type} (names : List String) (members : α → Fields)
    (ofFields? : Strictness → Fields → Option α) : Prop where
  names (a : α) : (members a).map Prod.fst = names
  plain (depth : Nat) (a : α) : Json.PlainMembers (depth + 4) (members a)
  ofFields? (strictness : Strictness) (a : α) : ofFields? strictness (members a) = some a

/-- An object whose wire form has these members is read from it. -/
theorem Recorded.record?_bind {α : Type} {names : List String} {members : α → Fields}
    {ofFields? : Strictness → Fields → Option α} (recorded : Recorded names members ofFields?)
    (distinct : names.Nodup) (strictness : Strictness) (a : α) :
    ((Json.object (members a)).record? names).bind (ofFields? strictness) = some a := by
  rw [Json.record?_object (recorded.names a ▸ distinct), Option.bind_some, recorded.ofFields?]

/-- The members of the specification. -/
def ApiExport.specMembers (e : ApiExport) : Fields :=
  [("latestResourceSchemas", encode e.schemas), ("permissionClaims", encode e.claims)]

theorem ApiExport.recorded :
    Recorded ApiExport.fields ApiExport.members ApiExport.ofFields? where
  names _ := rfl
  plain depth e :=
    have spec : Json.PlainMembers (depth + 3) e.specMembers :=
      .cons (LawfulWire.plain (depth + 2) e.schemas) <|
        .cons (LawfulWire.plain (depth + 1) e.claims) .nil
    .cons (LawfulWire.plain (depth + 3) e.metadata) (.cons spec.object .nil)
  ofFields? strictness e := by
    have metadata : Fields.orElse strictness e.members "metadata" (.named "") = some e.metadata :=
      Fields.orElse_eq false (by simp [members]) (by simp)
    have spec : Json.member? e.members "spec" = some (.object e.specMembers) := rfl
    have schemas : Fields.orElse strictness e.specMembers "latestResourceSchemas" [] =
        some e.schemas :=
      Fields.orElse_eq false (by simp [specMembers]) (by simp)
    have claims : Fields.orElse strictness e.specMembers "permissionClaims" [] = some e.claims :=
      Fields.orElse_eq false (by simp [specMembers]) (by simp)
    have distinct : (e.specMembers.map Prod.fst).Nodup :=
      (by decide : ["latestResourceSchemas", "permissionClaims"].Nodup)
    simp only [ApiExport.ofFields?, metadata, spec, Json.record?_object distinct, schemas, claims,
      Option.bind_eq_bind, Option.bind_some, Option.pure_def]

/-- The members of the specification. -/
def CatalogEntry.specMembers (e : CatalogEntry) : Fields :=
  ("exports", encode e.exports) :: Fields.emit "description" e.description (e.description == "")

theorem CatalogEntry.recorded :
    Recorded CatalogEntry.fields CatalogEntry.members CatalogEntry.ofFields? where
  names _ := rfl
  plain depth e :=
    have spec : Json.PlainMembers (depth + 3) e.specMembers :=
      .cons (LawfulWire.plain depth e.exports) <|
        Fields.plain_emit (LawfulWire.plain (depth + 3) e.description)
    .cons (LawfulWire.plain (depth + 3) e.metadata) <| .cons spec.object <|
      .cons (LawfulWire.plain (depth + 1) e.status) .nil
  ofFields? strictness e := by
    have metadata : Fields.orElse strictness e.members "metadata" (.named "") = some e.metadata :=
      Fields.orElse_eq false (by simp [members]) (by simp)
    have spec : Json.member? e.members "spec" = some (.object e.specMembers) := rfl
    have status : Fields.orElse strictness e.members "status" .empty = some e.status :=
      Fields.orElse_eq false (by simp [members]) (by simp)
    have exports : Fields.orElse strictness e.specMembers "exports" [] = some e.exports :=
      Fields.orElse_eq false (by simp [specMembers]) (by simp)
    have description : Fields.orElse strictness e.specMembers "description" "" =
        some e.description :=
      Fields.orElse_eq (e.description == "") (by simp [specMembers]) (by simp)
    have names : (e.specMembers.map Prod.fst).Sublist ["exports", "description"] :=
      Fields.names_emit.cons_cons "exports"
    simp only [CatalogEntry.ofFields?, metadata, spec, status,
      Json.record?_object (names.nodup (by decide)), exports, description,
      Option.bind_eq_bind, Option.bind_some, Option.pure_def]

/-- The members of the specification. -/
def ApiBinding.specMembers (b : ApiBinding) : Fields :=
  ("reference", encode b.reference) ::
    Fields.emit "permissionClaims" b.claims b.claims.isEmpty

theorem ApiBinding.recorded :
    Recorded ApiBinding.fields ApiBinding.members ApiBinding.ofFields? where
  names _ := rfl
  plain depth b :=
    have spec : Json.PlainMembers (depth + 3) b.specMembers :=
      .cons (LawfulWire.plain (depth + 1) b.reference) <|
        Fields.plain_emit (LawfulWire.plain (depth + 1) b.claims)
    have status : Json.PlainMembers (depth + 3) [("phase", encode b.phase)] :=
      .cons (LawfulWire.plain (depth + 3) b.phase) .nil
    .cons (LawfulWire.plain (depth + 3) b.metadata) (.cons spec.object (.cons status.object .nil))
  ofFields? strictness b := by
    have metadata : Fields.orElse strictness b.members "metadata" (.named "") = some b.metadata :=
      Fields.orElse_eq false (by simp [members]) (by simp)
    have spec : Json.member? b.members "spec" = some (.object b.specMembers) := rfl
    have status : Json.member? b.members "status" = some (.object [("phase", encode b.phase)]) :=
      rfl
    have reference : Fields.required strictness b.specMembers "reference" = some b.reference :=
      Fields.required_eq (by simp [specMembers])
    have claims : Fields.orElse strictness b.specMembers "permissionClaims" [] = some b.claims :=
      Fields.orElse_eq b.claims.isEmpty (by simp [specMembers]) (by simp)
    have phase : Fields.orElse strictness [("phase", encode b.phase)] "phase" .pending =
        some b.phase :=
      Fields.orElse_eq false (by simp) (by simp)
    have names : (b.specMembers.map Prod.fst).Sublist ["reference", "permissionClaims"] :=
      Fields.names_emit.cons_cons "reference"
    have single : ([("phase", encode b.phase)].map Prod.fst).Nodup :=
      List.pairwise_singleton _ "phase"
    simp only [ApiBinding.ofFields?, metadata, spec, status,
      Json.record?_object (names.nodup (by decide)), Json.record?_object single, reference, claims,
      phase, Option.bind_eq_bind, Option.bind_some, Option.pure_def]

instance : LawfulWire ApiExport 5 where
  decode_encode := ApiExport.recorded.record?_bind (by decide)
  plain depth e := (ApiExport.recorded.plain depth e).object

instance : LawfulWire CatalogEntry 5 where
  decode_encode := CatalogEntry.recorded.record?_bind (by decide)
  plain depth e := (CatalogEntry.recorded.plain depth e).object

instance : LawfulWire ApiBinding 5 where
  decode_encode := ApiBinding.recorded.record?_bind (by decide)
  plain depth b := (ApiBinding.recorded.plain depth b).object

end Objects
end ApiCatalog
