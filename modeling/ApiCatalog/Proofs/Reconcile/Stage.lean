import ApiCatalog.Proofs.Reconcile.Convergence
import Mathlib.Data.List.Basic

/-!
# Passes that nothing has disturbed

While a pass is under way, others may change the store. As long as they leave the entry and what its
references resolve to as they are, the pass goes on as if it were alone. Main statements: such a
pass stays undisturbed by its own steps until it commits (`Undisturbed.step`), and what it finds at
its end is right (`Undisturbed.done`).
-/
namespace ApiCatalog
namespace Memory

section Frame

variable {s s' : Memory} {nameSpace : Option String} {entry : CatalogEntry}

/-- The references of the entry resolve to the same in both stores. -/
def SameResolutions (s s' : Memory) (nameSpace : Option String) (entry : CatalogEntry) : Prop :=
  ∀ reference ∈ entry.exports, s'.resolved? nameSpace reference = s.resolved? nameSpace reference

theorem SameResolutions.resolvedExports (same : SameResolutions s s' nameSpace entry) :
    s'.resolvedExports nameSpace entry = s.resolvedExports nameSpace entry :=
  List.filterMap_congr same

theorem SameResolutions.unresolved (same : SameResolutions s s' nameSpace entry) :
    s'.unresolved nameSpace entry = s.unresolved nameSpace entry := by
  have kept : entry.exports.filter (fun reference => (s'.resolved? nameSpace reference).isNone) =
      entry.exports.filter (fun reference => (s.resolved? nameSpace reference).isNone) :=
    List.filter_congr fun reference member => by rw [same reference member]
  rw [Memory.unresolved, Memory.unresolved, kept]

theorem SameResolutions.outdated_iff (same : SameResolutions s s' nameSpace entry) :
    Outdated s' nameSpace entry ↔ Outdated s nameSpace entry := by
  simp only [Outdated, same.resolvedExports, same.unresolved]

theorem SameResolutions.contribution (same : SameResolutions s s' nameSpace entry)
    {reference : ExportReference} (member : reference ∈ entry.exports) :
    s'.contribution nameSpace reference = s.contribution nameSpace reference := by
  rw [contribution_eq, contribution_eq, same reference member]

end Frame

section Stages

variable (policy : SchemaPolicy) (now : Instant) (request : Request) (entry : CatalogEntry)

/-- What is left of a pass that has fetched the entry and looked some references up. -/
def resolving (known : List Contribution) (references : List ExportReference) :
    Program Pass.Step.Answer (Except PassError Outcome) := do
  let others ← Pass.resolve request.nameSpace references
  Pass.commit request entry
    (.ofContributions policy (known ++ others) entry.status.conditions now)

theorem derive_commit_eq :
    (Pass.derive entry request.nameSpace policy now >>= Pass.commit request entry) =
      resolving policy now request entry [] entry.exports := by
  rw [Pass.derive, Program.bind_assoc]
  rfl

theorem resolving_cons (known : List Contribution) (reference : ExportReference)
    (rest : List ExportReference) :
    resolving policy now request entry known (reference :: rest) =
      .ask (.lookup reference request.nameSpace) fun resolution =>
        resolving policy now request entry (known ++ [resolution.contribution reference]) rest := by
  rw [resolving, Pass.resolve, Program.ask_bind]
  congr
  funext resolution
  rw [resolving, Program.bind_assoc]
  simp only [Program.pure_eq_done, Program.done_bind, List.append_assoc, List.singleton_append]

theorem resolving_nil (known : List Contribution) :
    resolving policy now request entry known [] = Pass.commit request entry
      (.ofContributions policy known entry.status.conditions now) := by
  rw [resolving, Pass.resolve, Program.done_bind, List.append_nil]

end Stages

section Undisturbed

/-- A pass under way that has seen nothing but what the store still has: the entry, and what some of
its references resolve to. -/
inductive Undisturbed (policy : SchemaPolicy) (s : Memory) (request : Request)
    (entry : CatalogEntry) : Program Pass.Step.Answer (Except PassError Outcome) → Prop where
  | waiting (now : Instant) : Undisturbed policy s request entry (reconcile policy now request)
  | looking (now : Instant) (known references : List ExportReference) :
      entry.exports = known ++ references → Undisturbed policy s request entry
        (resolving policy now request entry (known.map (s.contribution request.nameSpace))
          references)

variable {policy : SchemaPolicy} {s s' : Memory} {request : Request} {entry : CatalogEntry}
variable {rest : Program Pass.Step.Answer (Except PassError Outcome)}

theorem Undisturbed.congr (undisturbed : Undisturbed policy s request entry rest)
    (same : SameResolutions s s' request.nameSpace entry) :
    Undisturbed policy s' request entry rest := by
  cases undisturbed with
  | waiting now => exact .waiting now
  | looking now known references split =>
    have kept : known.map (s.contribution request.nameSpace) =
        known.map (s'.contribution request.nameSpace) :=
      List.map_congr_left fun reference member =>
        (same.contribution (split ▸ List.mem_append_left references member)).symm
    rw [kept]
    exact .looking now known references split

/-- The contributions of all references give the derivation that a fresh pass arrives at. -/
theorem resolving_all (policy : SchemaPolicy) (now : Instant) (s : Memory) (request : Request)
    (entry : CatalogEntry) :
    resolving policy now request entry (entry.exports.map (s.contribution request.nameSpace)) [] =
      Pass.commit request entry (s.derivation policy now request.nameSpace entry) :=
  resolving_nil ..

/-- A step of an undisturbed pass leaves the store as it is and the pass undisturbed, or it writes
another status of the entry. -/
theorem Undisturbed.step {step : Pass.Step}
    {next : step.Answer → Program Pass.Step.Answer (Except PassError Outcome)}
    (undisturbed : Undisturbed policy s request entry (.ask step next))
    (name : entry.name = request.name)
    (stored : s.entries.get? (Stored.key request.partition entry) = some entry) :
    (perform step s).2 = s ∧ Undisturbed policy s request entry (next (perform step s).1) ∨
      (perform step s).2.published =
        s.published ++ [⟨.entryChanged, Stored.key request.partition entry⟩] := by
  generalize program : Program.ask step next = rest at undisturbed
  cases undisturbed with
  | waiting now =>
    rw [reconcile] at program
    cases program
    have found : s.getEntry request.partition request.name = .ok entry :=
      getEntry_eq_ok.2 (name ▸ stored)
    rw [perform_fetch, found]
    refine .inl ⟨rfl, ?_⟩
    change Undisturbed policy s request entry
      (Pass.derive entry request.nameSpace policy now >>= Pass.commit request entry)
    rw [derive_commit_eq]
    exact .looking now [] entry.exports rfl
  | looking now known references split =>
    cases references with
    | cons reference others =>
      rw [resolving_cons] at program
      cases program
      rw [perform_lookup]
      refine .inl ⟨rfl, ?_⟩
      have split' : entry.exports = (known ++ [reference]) ++ others := by
        rw [split, List.append_assoc]
        rfl
      have further : Undisturbed policy s request entry _ := .looking now _ others split'
      rw [List.map_append] at further
      exact further
    | nil =>
      -- All references are looked up. Only a pass that writes has a step left.
      rw [List.append_nil] at split
      rw [← split, resolving_all, Pass.commit] at program
      split at program
      · cases program
      · cases program
        rw [perform_commit, updateEntryStatus_self stored]
        exact .inr rfl

/-- A pass that ends undisturbed without a write has found the entry to be as it should. -/
theorem Undisturbed.done {result : Except PassError Outcome}
    (undisturbed : Undisturbed policy s request entry (.done result)) :
    ¬Outdated s request.nameSpace entry := by
  generalize program : Program.done result = rest at undisturbed
  cases undisturbed with
  | waiting now =>
    rw [reconcile] at program
    cases program
  | looking now known references split =>
    cases references with
    | cons reference others =>
      rw [resolving_cons] at program
      cases program
    | nil =>
      rw [List.append_nil] at split
      rw [← split, resolving_all, Pass.commit] at program
      split at program
      next same =>
        rw [(derivation_eq s policy now request.nameSpace entry).1] at same
        exact (meaning_eq_status_iff now).1 same
      · cases program

/-- Left alone from now on, an undisturbed pass does what a fresh pass does. -/
theorem Undisturbed.run_eq (undisturbed : Undisturbed policy s request entry rest)
    (found : s.getEntry request.partition request.name = .ok entry) :
    ∃ now, rest.run perform s = s.pass policy now request := by
  cases undisturbed with
  | waiting now => exact ⟨now, rfl⟩
  | looking now known references split =>
    refine ⟨now, ?_⟩
    have all : known.map (s.contribution request.nameSpace) ++
        references.map (s.contribution request.nameSpace) =
          entry.exports.map (s.contribution request.nameSpace) := by
      rw [split, List.map_append]
    rw [pass_eq_commit found, resolving, Program.run_bind_apply, run_resolve, all]
    rfl

end Undisturbed
end Memory
end ApiCatalog
