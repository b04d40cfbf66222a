import ApiCatalog.Client.Binding
import ApiCatalog.Proofs.Client.Record
import Mathlib.Data.List.Basic

/-!
# Notes of a binding

Of all that a client does which binds an entry, its calls count, the output that is refused, and the
line that says that the entry is bound. Main statement: a client that says which references it skips
leaves nothing that counts, unless a line is refused and it halts (`speaks_skip`).
-/
namespace ApiCatalog
namespace Binding

open Client

section Notes

/-- A binding that was asked for, and the answer. -/
structure Creation where
  partition : Partition
  wanted : ApiBinding
  answer : Except StoreError ApiBinding
  deriving DecidableEq

def Creation.deed (c : Creation) : Deed := ⟨.call (.createBinding c.partition c.wanted), c.answer⟩

/-- A look at a binding, and the answer. -/
structure Look where
  partition : Partition
  name : String
  answer : Except StoreError ApiBinding
  deriving DecidableEq

inductive Note where
  | fetched (partition : Partition) (name : String) (answer : Except StoreError CatalogEntry)
  | listed (partition : Partition) (answer : Except StoreError (List ApiBinding))
  | creation (c : Creation)
  | look (l : Look)
  /-- The line was written that says that the entry is bound. -/
  | told (entry : String)
  /-- Some output was refused. -/
  | refused (reason : String)
  | other (c : Call)
  deriving DecidableEq

/-- The line that says that an entry is bound. -/
def boundLine (entry : String) : List String :=
  ["APIBinding created and bound to catalog entry ", entry, ".", "\n"]

/-- A line that was written counts if it is the one that says that an entry is bound. -/
def told? : List String → Option Note
  | [opening, entry, stop, ending] =>
    if [opening, entry, stop, ending] = boundLine entry then some (.told entry) else none
  | _ => none

def note? : Deed → Option Note
  | ⟨.call (.getEntry partition name), answer⟩ => some (.fetched partition name answer)
  | ⟨.call (.listBindings partition), answer⟩ => some (.listed partition answer)
  | ⟨.call (.createBinding partition wanted), answer⟩ =>
    some (.creation ⟨partition, wanted, answer⟩)
  | ⟨.call (.getBinding partition name), answer⟩ => some (.look ⟨partition, name, answer⟩)
  | ⟨.call c, _⟩ => some (.other c)
  | ⟨.write pieces, .ok _⟩ => told? pieces
  | ⟨.write _, .error reason⟩ => some (.refused reason)
  | ⟨.flush, .ok _⟩ => none
  | ⟨.flush, .error reason⟩ => some (.refused reason)
  | ⟨.clock, _⟩ => none
  | ⟨.sleep _, _⟩ => none

theorem note?_boundLine (entry : String) :
    note? ⟨.write (boundLine entry), .ok ()⟩ = some (.told entry) :=
  if_pos rfl

theorem told?_eq_some {pieces : List String} {note : Note} (told : told? pieces = some note) :
    ∃ entry, note = .told entry ∧ pieces = boundLine entry := by
  unfold told? at told
  split at told
  · split at told
    next line =>
      cases told
      exact ⟨_, rfl, line⟩
    · cases told
  · cases told

/-- What was done and answered, where the note says it. -/
def Note.deed? : Note → Option Deed
  | fetched partition name answer => some ⟨.call (.getEntry partition name), answer⟩
  | listed partition answer => some ⟨.call (.listBindings partition), answer⟩
  | creation c => some c.deed
  | look ⟨partition, name, answer⟩ => some ⟨.call (.getBinding partition name), answer⟩
  | told entry => some ⟨.write (boundLine entry), .ok ()⟩
  | refused _ => none
  | other _ => none

theorem deed_of_note {deed shown : Deed} {note : Note} (noted : note? deed = some note)
    (shows : note.deed? = some shown) : shown = deed := by
  obtain ⟨action, reply⟩ := deed
  cases action with
  | call c =>
    cases c <;> cases noted <;> first | exact (Option.some.inj shows).symm | cases shows
  | write pieces =>
    cases reply with
    | error reason =>
      cases noted
      cases shows
    | ok done =>
      obtain ⟨entry, rfl, rfl⟩ := told?_eq_some noted
      exact (Option.some.inj shows).symm
  | flush =>
    cases reply with
    | ok done => cases noted
    | error reason =>
      cases noted
      cases shows
  | clock => cases noted
  | sleep length => cases noted

/-- What counts on a record. -/
def notes (log : List Deed) : List Note := log.filterMap note?

theorem notes_cons_of_none {deed : Deed} (quiet : note? deed = none) (log : List Deed) :
    notes (deed :: log) = notes log :=
  List.filterMap_cons_none quiet

theorem notes_cons_of_some {deed : Deed} {note : Note} (noted : note? deed = some note)
    (log : List Deed) : notes (deed :: log) = note :: notes log :=
  List.filterMap_cons_some noted

theorem exists_deed {log : List Deed} {note : Note} (member : note ∈ notes log) :
    ∃ deed ∈ log, note? deed = some note :=
  List.mem_filterMap.1 member

theorem notes_append (first rest : List Deed) :
    notes (first ++ rest) = notes first ++ notes rest :=
  List.filterMap_append

/-- Calls of no other kind are on record if there are none in either part. -/
theorem other_not_mem_append {first rest : List Deed} :
    (∀ c, .other c ∉ notes (first ++ rest)) ↔
      (∀ c, .other c ∉ notes first) ∧ ∀ c, .other c ∉ notes rest := by
  simp only [notes_append, List.mem_append, not_or, forall_and]

/-- The error of a listing or of a creation. -/
def Note.failure? : Note → Option StoreError
  | listed _ (.error e) => some e
  | creation ⟨_, _, .error e⟩ => some e
  | _ => none

def Note.creation? : Note → Option Creation
  | creation c => some c
  | _ => none

/-- A created binding, with its partition. -/
def Creation.made? (c : Creation) : Option (Partition × ApiBinding) :=
  match c.answer with
  | .ok made => some (c.partition, made)
  | .error _ => none

def Note.look? : Note → Option Look
  | look l => some l
  | _ => none

def Note.refusal? : Note → Option String
  | refused reason => some reason
  | _ => none

def failures (noted : List Note) : List StoreError := noted.filterMap Note.failure?

def creations (noted : List Note) : List Creation := noted.filterMap Note.creation?

def made (noted : List Note) : List (Partition × ApiBinding) :=
  (creations noted).filterMap Creation.made?

def looks (noted : List Note) : List Look := noted.filterMap Note.look?

def refusals (noted : List Note) : List String := noted.filterMap Note.refusal?

theorem mem_looks_iff {noted : List Note} {l : Look} : l ∈ looks noted ↔ .look l ∈ noted := by
  refine List.mem_filterMap.trans ⟨fun ⟨note, member, same⟩ => ?_, fun member => ⟨_, member, rfl⟩⟩
  cases note <;> cases same
  exact member

/-- A creation that is noted is an action on record. -/
theorem exists_deed_creation {log : List Deed} {c : Creation} (member : c ∈ creations (notes log)) :
    ∃ n : Nat, log[n]? = some c.deed := by
  obtain ⟨note, noted, same⟩ := List.mem_filterMap.1 member
  cases note <;> cases same
  obtain ⟨deed, on_record, noted⟩ := exists_deed noted
  exact List.mem_iff_getElem?.1 (deed_of_note noted rfl ▸ on_record)

/-- A creation that has failed is among the failures. -/
theorem mem_failures_of_creation {noted : List Note} {partition : Partition} {wanted : ApiBinding}
    {e : StoreError} (failed : ⟨partition, wanted, .error e⟩ ∈ creations noted) :
    e ∈ failures noted := by
  obtain ⟨note, member, same⟩ := List.mem_filterMap.1 failed
  cases note <;> cases same
  exact List.mem_filterMap.2 ⟨_, member, rfl⟩

/-- A binding that was created is among those that were made. -/
theorem mem_made_of_creation {noted : List Note} {partition : Partition} {wanted b : ApiBinding}
    (created : ⟨partition, wanted, .ok b⟩ ∈ creations noted) : (partition, b) ∈ made noted :=
  List.mem_filterMap.2 ⟨_, created, rfl⟩

/-- Where all output was taken no refusal is noted. -/
theorem refused_not_mem {noted : List Note} (taken : refusals noted = []) (reason : String) :
    .refused reason ∉ noted := fun member => by
  cases List.filterMap_eq_nil_iff.1 taken _ member

section Append

variable (first rest : List Note)

theorem failures_append : failures (first ++ rest) = failures first ++ failures rest :=
  List.filterMap_append

theorem creations_append : creations (first ++ rest) = creations first ++ creations rest :=
  List.filterMap_append

theorem made_append : made (first ++ rest) = made first ++ made rest := by
  rw [made, creations_append, List.filterMap_append, made, made]

theorem looks_append : looks (first ++ rest) = looks first ++ looks rest :=
  List.filterMap_append

end Append

/-- The creations on record, as notes. -/
theorem creations_map (asked : List Creation) : creations (asked.map .creation) = asked := by
  rw [creations, List.filterMap_map]
  exact List.filterMap_some

theorem looks_map (all : List Look) : looks (all.map .look) = all := by
  rw [looks, List.filterMap_map]
  exact List.filterMap_some

/-- There is no look among the creations. -/
theorem looks_creations (asked : List Creation) : looks (asked.map .creation) = [] :=
  List.filterMap_eq_nil_iff.2 (List.forall_mem_map.2 fun _ _ => rfl)

end Notes

section Lines

variable {α β : Type} {a : α} {log : List Deed}

/-- Some output was refused, and the client has halted for that. -/
def denied (reason : String) : Except Halt α := .error (.failed (.output reason))

/-- Ends with a value if all of its lines are taken. -/
inductive Speaks (a : α) : List Note → Except Halt α → Prop where
  | said : Speaks a [] (.ok a)
  | refused (reason : String) : Speaks a [.refused reason] (denied reason)

/-- Any line but the one that says that the entry is bound. -/
def Aside (pieces : List String) : Prop := told? (pieces ++ ["\n"]) = none

theorem speaks_print {pieces : List String} (aside : Aside pieces) {result : Except Halt Unit}
    (ends : Ends (print pieces) log result) : Speaks () (notes log) result := by
  obtain ⟨rfl, rfl⟩ | ⟨reason, rfl, rfl⟩ := ends.of_print
  · have quiet : note? ⟨.write (pieces ++ ["\n"]), .ok ()⟩ = none := aside
    rw [notes_cons_of_none quiet]
    exact .said
  · rw [notes_cons_of_some rfl]
    exact .refused reason

/-- One client after another, which only say something. -/
theorem Speaks.bind {b : β} {c : Client α} {f : α → Client β} {result : Except Halt β}
    (ends : Ends (c >>= f) log result)
    (first : ∀ {log result}, Ends c log result → Speaks a (notes log) result)
    (rest : ∀ {log result}, Ends (f a) log result → Speaks b (notes log) result) :
    Speaks b (notes log) result := by
  obtain ⟨h, halted, rfl⟩ | ⟨a', before, after, rfl, said, ended⟩ := ends.of_bind
  · have speaks := first halted
    generalize notes log = noted at speaks ⊢
    cases speaks
    exact .refused _
  · have speaks := first said
    rw [notes_append]
    generalize notes before = noted at speaks ⊢
    cases speaks
    exact rest ended

theorem speaks_pure {result : Except Halt α} (ends : Ends (pure a) log result) :
    Speaks a (notes log) result := by
  obtain ⟨rfl, rfl⟩ := ends.of_pure
  exact .said

theorem speaks_skip {references : List ExportReference} {result : Except Halt (List String)}
    (ends : Ends (skip references) log result) :
    Speaks ((references.filter fun r => !r.isComplete).map (·.display)) (notes log) result := by
  induction references generalizing log result with
  | nil => exact speaks_pure ends
  | cons reference rest ih =>
    unfold skip at ends
    split at ends
    next complete =>
      rw [List.filter_cons_of_neg (by simp [complete])]
      exact ih ends
    next incomplete =>
      rw [List.filter_cons_of_pos (by simpa using incomplete)]
      exact Speaks.bind ends (speaks_print (by simp [Aside, told?])) fun ends =>
        Speaks.bind ends ih speaks_pure

theorem speaks_reuse {wanted found : ApiBinding} {result : Except Halt Fate}
    (ends : Ends (reuse wanted found) log result) :
    Speaks (.reused found.metadata.name) (notes log) result := by
  have ending {log : List Deed} {result : Except Halt Fate}
      (ends : Ends (do
        Client.print ["Found an existing APIBinding ", found.metadata.name,
          " pointing to the same export reference."]
        return Fate.reused found.metadata.name) log result) :
      Speaks (.reused found.metadata.name) (notes log) result :=
    Speaks.bind ends (speaks_print (by simp [Aside, told?, boundLine])) speaks_pure
  unfold reuse at ends
  dsimp only at ends
  split at ends
  · exact Speaks.bind ends (speaks_print (by simp [Aside, told?, boundLine])) ending
  · exact ending ends

end Lines

end Binding
end ApiCatalog
