import ApiCatalog.Proofs.Client.Additions
import ApiCatalog.Proofs.Client.Course

/-!
# Failures of a binding

A client that binds an entry collects the errors of the listing and of the creations, and goes on.
It is in the end that it gives them back. Main statement: it gives back all of them exactly if no
output is refused and, where it waits, all created bindings are seen bound; else the error that it
ends with has none of them (`failures_reported_iff`). So a creation that has failed is not reported
if another binding is not bound in time (`failure_lost_waiting`).
-/
namespace ApiCatalog

namespace ClientError

mutual

/-- The errors of a store that an error has in it. -/
def sources : ClientError → List StoreError
  | listFailed _ source => [source]
  | exportLookup _ source => [source]
  | store source => [source]
  | aggregate errors => allSources errors
  | _ => []

def allSources : List ClientError → List StoreError
  | [] => []
  | e :: rest => e.sources ++ allSources rest

end

theorem allSources_store (errors : List StoreError) : allSources (errors.map .store) = errors := by
  induction errors with
  | nil => rfl
  | cons e rest ih =>
    rw [List.map_cons, allSources, ih]
    rfl

end ClientError

namespace Binding

open Client

/-- The names of the created bindings. -/
def madeNames (noted : List Note) : List String := (made noted).map (·.2.metadata.name)

/-- No output is refused, and the client does not wait or sees in the end all of the bindings
bound. -/
def GetsThrough (o : Options) (names : List String) (noted : List Note) : Prop :=
  refusals noted = [] ∧ (o.timeout = .zero ∨ SeenBound o.target names (looks noted))

section Views

variable {target : Partition} {known : ExportReference → Option String}
variable {references : List ExportReference} {asked : List Creation} {accounts : List Account}

/-- The bindings that the accounts say are created. -/
theorem Settles.created_eq (settles : Settles target known references asked accounts) :
    (accounts.filterMap Account.fate?).filterMap Fate.created? =
      madeNames (asked.map .creation) := by
  induction settles with
  | none => rfl
  | skipped _ rest ih | reused _ _ rest ih | failed _ _ rest ih => exact ih
  | created _ _ rest ih => exact congrArg (_ :: ·) ih

/-- The errors that the accounts have. -/
theorem Settles.errors_eq (settles : Settles target known references asked accounts) :
    (accounts.filterMap Account.fate?).filterMap Fate.error? =
      (failures (asked.map .creation)).map .store := by
  induction settles with
  | none => rfl
  | skipped _ rest ih | reused _ _ rest ih | created _ _ rest ih => exact ih
  | failed _ _ rest ih => exact congrArg (_ :: ·) ih

variable {o : Options} {entry : String} {names : List String} {noted : List Note}

theorem not_getsThrough_of_refused (reason : String) (member : .refused reason ∈ noted) :
    ¬ GetsThrough o names noted :=
  fun through => refused_not_mem through.1 reason member

/-- What is noted when all references are settled: nothing is listed or created any more. -/
def Late : Note → Prop
  | .look _ => True
  | .told _ => True
  | .refused _ => True
  | _ => False

theorem Late.shows_nothing {note : Note} (late : Late note) :
    note.failure? = none ∧ note.creation? = none := by
  cases note <;> first | exact ⟨rfl, rfl⟩ | exact late.elim

theorem failures_of_late (late : ∀ note ∈ noted, Late note) : failures noted = [] :=
  List.filterMap_eq_nil_iff.2 fun note member => (late note member).shows_nothing.1

theorem creations_of_late (late : ∀ note ∈ noted, Late note) : creations noted = [] :=
  List.filterMap_eq_nil_iff.2 fun note member => (late note member).shows_nothing.2

theorem Awaited.late {result : Except Halt Unit} (awaited : Awaited o entry names noted result) :
    ∀ note ∈ noted, Late note := by
  have all (looks : List Look) : ∀ note ∈ looks.map Note.look, Late note :=
    List.forall_mem_map.2 fun _ _ => trivial
  cases awaited with
  | unwaited zero => exact nofun
  | bound waits seen => exact List.forall_mem_append.2 ⟨all _, List.forall_mem_singleton.2 trivial⟩
  | unbound waits unseen reason => exact all _
  | unfinished looks => exact all looks
  | unsaid looks reason =>
    exact List.forall_mem_append.2 ⟨all looks, List.forall_mem_singleton.2 trivial⟩

theorem Coda.late {errors : List ClientError} {report : Report} {result : Except Halt Report}
    (coda : Coda o entry names errors report noted result) : ∀ note ∈ noted, Late note := by
  cases coda with
  | halted awaited => exact awaited.late
  | unflushed awaited reason =>
    exact List.forall_mem_append.2 ⟨awaited.late, List.forall_mem_singleton.2 trivial⟩
  | concluded awaited => exact awaited.late

/-- A wait that ends well is got through. -/
theorem Awaited.getsThrough (awaited : Awaited o entry names noted (.ok ())) :
    GetsThrough o names noted := by
  cases awaited with
  | unwaited zero => exact ⟨rfl, .inl zero⟩
  | @bound all waits seen =>
    refine ⟨?_, .inr ?_⟩
    · simp [refusals, List.filterMap_map, Function.comp_def, Note.refusal?]
    · rw [looks_append, looks_map, show looks [.told entry] = [] from rfl, List.append_nil]
      exact seen

/-- A wait that ends with an error is not got through, and the error is none of the store's. -/
theorem Awaited.halted {e : ClientError}
    (awaited : Awaited o entry names noted (.error (.failed e))) :
    e.sources = [] ∧ ¬ GetsThrough o names noted := by
  generalize ended : (Except.error (Halt.failed e) : Except Halt Unit) = result at awaited
  cases awaited with
  | unwaited zero => cases ended
  | bound waits seen => cases ended
  | @unbound all waits unseen reason =>
    cases ended
    refine ⟨by simp [ClientError.sources], fun through => ?_⟩
    rcases through.2 with zero | seen
    · exact waits zero
    · rw [looks_map] at seen
      exact unseen seen
  | unfinished all => cases ended
  | unsaid all reason =>
    cases ended
    exact ⟨by simp [ClientError.sources], not_getsThrough_of_refused reason (by simp)⟩

section Listed

variable {partition target : Partition} {name : String} {given : CatalogEntry}
variable {listing : Except StoreError (List ApiBinding)} {rest : List Note}

theorem creations_listedNotes (late : ∀ note ∈ rest, Late note) :
    creations (listedNotes partition name given target listing asked rest) = asked := by
  have whole : creations (asked.map .creation ++ rest) = asked := by
    rw [creations_append, creations_map, creations_of_late late, List.append_nil]
  exact whole

theorem madeNames_listedNotes (late : ∀ note ∈ rest, Late note) :
    madeNames (listedNotes partition name given target listing asked rest) =
      madeNames (asked.map .creation) := by
  rw [madeNames, madeNames, made, made, creations_listedNotes late, creations_map]

/-- The failures on record are those of the listing and of the creations. -/
theorem failures_listedNotes (late : ∀ note ∈ rest, Late note) :
    (failures (listedNotes partition name given target listing asked rest)).map .store =
      listErrors listing ++ (failures (asked.map .creation)).map ClientError.store := by
  have later : failures (asked.map .creation ++ rest) = failures (asked.map .creation) := by
    rw [failures_append, failures_of_late late, List.append_nil]
  rw [← later]
  cases listing <;> rfl

theorem looks_listedNotes :
    looks (listedNotes partition name given target listing asked rest) = looks rest := by
  simp [looks, List.filterMap_cons, List.filterMap_map, Function.comp_def, Note.look?]

theorem refusals_listedNotes :
    refusals (listedNotes partition name given target listing asked rest) = refusals rest := by
  simp [refusals, List.filterMap_cons, List.filterMap_map, Function.comp_def, Note.refusal?]

theorem getsThrough_listedNotes_iff :
    GetsThrough o names (listedNotes partition name given target listing asked rest) ↔
      GetsThrough o names rest := by
  rw [GetsThrough, looks_listedNotes, refusals_listedNotes, GetsThrough]

end Listed

end Views

section Reports

variable {o : Options} {noted : List Note}

/-- The client ends well only without collected errors, and else with all of them together. -/
theorem concluded_cases (errors : List ClientError) (report : Report) :
    (errors = [] ∧ concluded errors report = .ok report) ∨
      (errors ≠ [] ∧ concluded errors report = .error (.failed (.aggregate errors))) := by
  cases errors with
  | nil => exact .inl ⟨rfl, rfl⟩
  | cons e rest => exact .inr ⟨List.cons_ne_nil _ _, rfl⟩

/-- The collected errors are given back by a client that gets through, and by no other one. -/
theorem Coda.reports {entry : String} {names : List String} {errors : List ClientError}
    {report : Report} {result : Except Halt Report}
    (coda : Coda o entry names errors report noted result) :
    (∀ report, result = .ok report → errors = []) ∧
      ∀ e, result = .error (.failed e) → errors ≠ [] →
        (GetsThrough o names noted → e = .aggregate errors) ∧
        (¬ GetsThrough o names noted → e.sources = []) := by
  cases coda with
  | halted awaited =>
    refine ⟨nofun, fun e ended _ => ?_⟩
    cases ended
    exact ⟨fun through => absurd through awaited.halted.2, fun _ => awaited.halted.1⟩
  | unflushed awaited reason =>
    refine ⟨nofun, fun e ended _ => ?_⟩
    cases ended
    exact ⟨fun through => absurd through (not_getsThrough_of_refused reason (by simp)),
      fun _ => by simp [ClientError.sources]⟩
  | concluded awaited =>
    rcases concluded_cases errors report with ⟨clean, ended⟩ | ⟨failed, ended⟩
    · rw [ended]
      exact ⟨fun _ _ => clean, nofun⟩
    · rw [ended]
      refine ⟨nofun, fun e same _ => ?_⟩
      cases same
      exact ⟨fun _ => rfl, fun hindered => absurd awaited.getsThrough hindered⟩

/-- How a course ends: with the failures that are noted, if the client gets through. -/
theorem Course.reports {result : Except Halt Report} (course : Course o noted result) :
    (∀ report, result = .ok report → failures noted = []) ∧
      ∀ e, result = .error (.failed e) → failures noted ≠ [] →
        (GetsThrough o (madeNames noted) noted → e = .aggregate ((failures noted).map .store)) ∧
        (¬ GetsThrough o (madeNames noted) noted → e.sources = []) := by
  cases course with
  | invalid invalid => exact ⟨nofun, fun _ _ failed => absurd rfl failed⟩
  | missing valid e => exact ⟨nofun, fun _ _ failed => absurd rfl failed⟩
  | unsaid valid entry reason => exact ⟨nofun, fun _ _ failed => absurd rfl failed⟩
  | interrupted valid begins settles reason =>
    refine ⟨nofun, fun e ended _ => ?_⟩
    cases ended
    exact ⟨fun through => absurd through (not_getsThrough_of_refused reason (by simp)),
      fun _ => by simp [ClientError.sources]⟩
  | @settled partition name entry listing asked accounts coda _ valid settles ends =>
    have reports := ends.reports
    rw [settles.created_eq, settles.errors_eq, ← failures_listedNotes ends.late] at reports
    rw [madeNames_listedNotes ends.late, getsThrough_listedNotes_iff]
    simpa only [ne_eq, List.map_eq_nil_iff] using reports

/-- Whatever a store answers and whenever an output is refused: a client ends well only if neither
the listing nor a creation has failed. If it ends with an error, each of these failures is in the
error exactly if the client gets through, and then the error is all of them together. -/
theorem failures_reported_iff {σ : Type} (answer : (action : Action) → StateM σ action.Answer)
    (patience : Nat) (o : Options) (w : σ) :
    let noted := notes (record answer (run patience o) w)
    let ended := outcome answer (run patience o) w
    (∀ report, ended = .ok report → failures noted = []) ∧
      ∀ e, ended = .error (.failed e) →
        (∀ f ∈ failures noted, f ∈ e.sources ↔ GetsThrough o (madeNames noted) noted) ∧
        (failures noted ≠ [] → GetsThrough o (madeNames noted) noted →
          e = .aggregate ((failures noted).map .store)) := by
  intro noted ended
  have course : Course o noted ended := course_run (ends_record answer (run patience o) w)
  obtain ⟨clean, reports⟩ := course.reports
  refine ⟨clean, fun e failed => ⟨fun f member => ?_, fun some => (reports e failed some).1⟩⟩
  have some : failures noted ≠ [] := List.ne_nil_of_mem member
  obtain ⟨all, none⟩ := reports e failed some
  constructor
  · intro inside
    by_contra hindered
    rw [none hindered] at inside
    cases inside
  · intro through
    rw [all through, ClientError.sources, ClientError.allSources_store]
    exact member

namespace Sample

def certs : ExportReference := ⟨"root:providers", "certs"⟩

def dns : ExportReference := ⟨"root:providers", "dns"⟩

def mail : ExportReference := ⟨"root:providers", "mail"⟩

/-- Has an entry with the references, and a binding of the first export. -/
def store (references : List ExportReference) : Memory :=
  let platform : CatalogEntry := ⟨.named "platform", references, "", .empty⟩
  let bound : ApiBinding := { ApiBinding.forReference certs with metadata := .named "certs" }
  ((Memory.empty.putEntry .root platform).2.putBinding .root bound).2

def options : Options := ⟨"root:platform", .root, .zero, .zero⟩

def busy : StoreError := .unavailable "busy"

/-- The first creation is refused, and nobody moves a binding. A second goes by with each action. -/
def strained : Surroundings Unit where
  backing := .memory
  around n := ⟨[], toString n, .ok (), .ofSeconds n, if n = 2 then some busy else none⟩

def premises (references : List ExportReference) : Premises Unit := ⟨store references, (), 0⟩

def hasty : Options := { options with timeout := .ofSeconds 1 }

end Sample

open Sample

/-- The errors of the store that a client gives back, if it ends with an error. -/
def reported : Except Halt Report → Option (List StoreError)
  | .error (.failed e) => some e.sources
  | _ => none

theorem failed_of_reported {ended : Except Halt Report} {errors : List StoreError}
    (given : reported ended = some errors) :
    ∃ e, ended = .error (.failed e) ∧ e.sources = errors := by
  unfold reported at given
  split at given
  · exact ⟨_, rfl, Option.some.inj given⟩
  · cases given

/-- The client does not wait, and ends with the failure. -/
theorem failures_reported_sample :
    let noted := notes (record strained.serve (run 1 options) (premises [dns, mail]))
    failures noted = [busy] ∧ madeNames noted = ["mail-3"] ∧
      outcome strained.serve (run 1 options) (premises [dns, mail]) =
        .error (.failed (.aggregate [.store busy])) := by
  intro noted
  have failed : failures noted = [busy] := by decide +kernel
  have ending : reported (outcome strained.serve (run 1 options) (premises [dns, mail])) =
      some [busy] := by decide +kernel
  obtain ⟨e, ended, -⟩ := failed_of_reported ending
  have reports := failures_reported_iff strained.serve 1 options (premises [dns, mail])
  have through : GetsThrough options (madeNames noted) noted :=
    ⟨by decide +kernel, .inl rfl⟩
  have all := (reports.2 e ended).2 (failed ▸ List.cons_ne_nil _ _) through
  rw [failed] at all
  exact ⟨failed, by decide +kernel, all ▸ ended⟩

/-- The second binding is created but not bound in time, and the error does not tell that the first
one was not created. -/
theorem failure_lost_waiting :
    failures (notes (record strained.serve (run 1 hasty) (premises [dns, mail]))) = [busy] ∧
      reported (outcome strained.serve (run 1 hasty) (premises [dns, mail])) = some [] := by
  decide +kernel

end Reports

end Binding
end ApiCatalog
