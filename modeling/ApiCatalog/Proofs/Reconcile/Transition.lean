import ApiCatalog.Proofs.Reconcile.Stage

/-!
# Times of transitions

The time of a condition says since when its state is as it is. Passes follow each other over one
entry with any readings of the clock, others change exports, faults and the entry meanwhile, and
passes may fail. Main statement: the verdict that is stored has the time of the last pass that came
to another verdict than the pass before it, and all conditions of other types are as they were
(`transition_times_true`).
-/
namespace ApiCatalog
namespace Memory

section Status

/-- The entry is there and has this status. -/
def HasStatus (s : Memory) (partition : Partition) (name : String) (status : EntryStatus) : Prop :=
  ∃ entry, s.getEntry partition name = .ok entry ∧ entry.status = status

/-- The entry, if there is one, is still there with the status that it had. -/
def KeepsStatus (partition : Partition) (name : String) (s s' : Memory) : Prop :=
  ∀ status, s.HasStatus partition name status → s'.HasStatus partition name status

variable {s s' : Memory} {partition : Partition} {name : String} {status : EntryStatus}

theorem keepsStatus_of_entries (same : s'.entries = s.entries) :
    KeepsStatus partition name s s' := by
  rintro status ⟨entry, found, own⟩
  exact ⟨entry, getEntry_eq_ok.2 (same ▸ getEntry_eq_ok.1 found), own⟩

/-- Whether or not it is the version of the entry that is written over. -/
theorem HasStatus.updateEntryStatus (has : s.HasStatus partition name status)
    (entry : CatalogEntry) (own : entry.name = name) :
    (s.updateEntryStatus partition entry).2.HasStatus partition name
      (match (s.updateEntryStatus partition entry).1 with
        | .ok _ => entry.status
        | .error _ => status) := by
  subst own
  obtain ⟨stored, found, same⟩ := has
  have here : s.entries.get? (Stored.key partition entry) = some stored := getEntry_eq_ok.1 found
  by_cases current : entry.metadata.version = stored.metadata.version
  · rw [updateEntryStatus_of_current here current]
    exact ⟨_, getEntry_eq_ok.2 (Table.get?_insert_self ..), rfl⟩
  · rw [updateEntryStatus_of_stale here current]
    exact ⟨stored, found, same⟩

end Status

/-- What is left of a pass is done step by step in the first store, with a result and the store
after it. Others may change the store between any two steps, but not the status of the entry, and
the pass may be cancelled. -/
inductive PassRun (partition : Partition) (name : String) :
    Memory → Program Pass.Step.Answer (Except PassError Outcome) →
      Except PassError Outcome → Memory → Prop where
  | ended {s result} : PassRun partition name s (.done result) result s
  | stepped {s step next result s'} :
      PassRun partition name (perform step s).2 (next (perform step s).1) result s' →
      PassRun partition name s (.ask step next) result s'
  | changed {s rest result s'} (op : Operation) : KeepsStatus partition name s (op.apply s) →
      PassRun partition name (op.apply s) rest result s' → PassRun partition name s rest result s'
  | cancelled {s step next} : PassRun partition name s (.ask step next) (.error .cancelled) s

/-- The pass may have the store for itself. -/
theorem passRun_run (partition : Partition) (name : String) (s : Memory)
    (rest : Program Pass.Step.Answer (Except PassError Outcome)) :
    PassRun partition name s rest (rest.run perform s).1 (rest.run perform s).2 := by
  induction rest generalizing s with
  | done result => exact .ended
  | ask step next ih => exact .stepped (ih _ _)

section Phases

/-- What becomes of the conditions by the end of a pass. -/
def Judges (now : Instant) (prior after : Conditions) : Except PassError Outcome → Prop
  | .ok outcome => after = prior.set (verdict outcome.invalidReferences now)
  | .error _ => after = prior

/-- How far a pass is, and the status that the entry has by then. The one that was fetched is still
the stored one until the pass has written. -/
inductive Phase (policy : SchemaPolicy) (now : Instant) (request : Request) (prior : Conditions) :
    Program Pass.Step.Answer (Except PassError Outcome) → EntryStatus → Prop where
  | waiting {status : EntryStatus} : status.conditions = prior →
      Phase policy now request prior (reconcile policy now request) status
  | looking {entry : CatalogEntry} (known : List Contribution)
      (references : List ExportReference) :
      entry.name = request.name → entry.status.conditions = prior →
      Phase policy now request prior (resolving policy now request entry known references)
        entry.status
  | ended {result : Except PassError Outcome} {status : EntryStatus} :
      Judges now prior status.conditions result →
      Phase policy now request prior (.done result) status

variable {policy : SchemaPolicy} {now : Instant} {request : Request} {prior : Conditions}
variable {s s' : Memory} {status : EntryStatus} {result : Except PassError Outcome}

theorem conditions_ofContributions (known : List Contribution) :
    (Derivation.ofContributions policy known prior now).status.conditions =
      prior.set (verdict (Derivation.ofContributions policy known prior now).invalidReferences
        now) := by
  rw [← exportsValid_eq]
  rfl

theorem Phase.done (phase : Phase policy now request prior (.done result) status) :
    Judges now prior status.conditions result := by
  generalize program : Program.done result = rest at phase
  cases phase with
  | waiting =>
    rw [reconcile] at program
    cases program
  | @looking entry known references _ conditions =>
    cases references with
    | cons reference others =>
      rw [resolving_cons] at program
      cases program
    | nil =>
      -- Without a write the derived status is the stored one.
      rw [resolving_nil, Pass.commit] at program
      split at program
      next same =>
        cases program
        subst conditions
        exact (congrArg EntryStatus.conditions same).symm.trans (conditions_ofContributions known)
      · cases program
  | ended judged =>
    cases program
    exact judged

theorem Phase.conditions_eq {step : Pass.Step}
    {next : step.Answer → Program Pass.Step.Answer (Except PassError Outcome)}
    (phase : Phase policy now request prior (.ask step next) status) :
    status.conditions = prior := by
  generalize program : Program.ask step next = rest at phase
  cases phase with
  | waiting conditions => exact conditions
  | looking _ _ _ conditions => exact conditions
  | ended => cases program

/-- A step brings the pass to its next phase, with the status that the entry then has. -/
theorem Phase.step {step : Pass.Step}
    {next : step.Answer → Program Pass.Step.Answer (Except PassError Outcome)}
    (phase : Phase policy now request prior (.ask step next) status)
    (has : s.HasStatus request.partition request.name status) (keyed : s.Keyed) :
    ∃ status', (perform step s).2.HasStatus request.partition request.name status' ∧
      Phase policy now request prior (next (perform step s).1) status' := by
  generalize program : Program.ask step next = rest at phase
  cases phase with
  | waiting conditions =>
    rw [reconcile] at program
    cases program
    obtain ⟨entry, found, rfl⟩ := has
    rw [perform_fetch, found]
    refine ⟨entry.status, ⟨entry, found, rfl⟩, ?_⟩
    change Phase policy now request prior
      (Pass.derive entry request.nameSpace policy now >>= Pass.commit request entry) _
    rw [derive_commit_eq]
    exact .looking _ _ (keyed.getEntry_eq_ok_iff.1 found).1 conditions
  | @looking entry known references own conditions =>
    cases references with
    | cons reference others =>
      rw [resolving_cons] at program
      cases program
      rw [perform_lookup]
      exact ⟨_, has, .looking _ others own conditions⟩
    | nil =>
      rw [resolving_nil, Pass.commit] at program
      split at program
      · cases program
      · cases program
        rw [perform_commit]
        let derived := Derivation.ofContributions policy known entry.status.conditions now
        refine ⟨_, has.updateEntryStatus { entry with status := derived.status } own, ?_⟩
        subst conditions
        cases (s.updateEntryStatus request.partition { entry with status := derived.status }).1 with
        | ok stored => exact .ended (conditions_ofContributions known)
        | error e => exact .ended rfl
  | ended => cases program

theorem Phase.judges {rest : Program Pass.Step.Answer (Except PassError Outcome)}
    (phase : Phase policy now request prior rest status)
    (run : PassRun request.partition request.name s rest result s')
    (has : s.HasStatus request.partition request.name status) (keyed : s.Keyed) :
    s'.Keyed ∧ ∃ status', s'.HasStatus request.partition request.name status' ∧
      Judges now prior status'.conditions result := by
  induction run generalizing status with
  | ended => exact ⟨keyed, status, has, phase.done⟩
  | stepped _ ih =>
    obtain ⟨status', has', phase'⟩ := phase.step has keyed
    exact ih phase' has' (keyed.perform _)
  | changed op keeps _ ih => exact ih phase (keeps status has) (keyed.operate op)
  | cancelled => exact ⟨keyed, status, has, phase.conditions_eq⟩

/-- By the end of a pass the entry has the conditions that it had before, with the verdict of the
pass among them if it ends well. -/
theorem PassRun.judges {partition : Partition} {name : String} {nameSpace : Option String}
    (run : PassRun partition name s (reconcile policy now ⟨partition, nameSpace, name⟩) result s')
    (has : s.HasStatus partition name status) (keyed : s.Keyed) :
    s'.Keyed ∧ ∃ status', s'.HasStatus partition name status' ∧
      Judges now status.conditions status'.conditions result := by
  have phase : Phase policy now ⟨partition, nameSpace, name⟩ status.conditions
      (reconcile policy now ⟨partition, nameSpace, name⟩) status := .waiting rfl
  exact phase.judges run has keyed

end Phases

section Turns

/-- The condition is the last one of the log, the latest first, that says another thing than the one
before it, or the first one of all. -/
def LastTurn (log : List Condition) (turn : Condition) : Prop :=
  ∃ since before, log = since ++ turn :: before ∧ (∀ c ∈ since, c.state = turn.state) ∧
    ∀ c, before.head? = some c → c.state ≠ turn.state

variable {log : List Condition} {turn c : Condition}

theorem lastTurn_first (c : Condition) : LastTurn [c] c :=
  ⟨[], [], rfl, fun _ inside => (nomatch inside), fun _ before => (nomatch before)⟩

theorem LastTurn.kept (last : LastTurn log turn) (same : c.state = turn.state) :
    LastTurn (c :: log) turn := by
  obtain ⟨since, before, rfl, equal, differs⟩ := last
  exact ⟨c :: since, before, rfl, List.forall_mem_cons.2 ⟨same, equal⟩, differs⟩

theorem exists_latest (since before : List Condition) (turn : Condition) :
    ∃ c, (since ++ turn :: before).head? = some c := by
  cases since <;> exact ⟨_, rfl⟩

/-- What was said last is what was said at the last turn. -/
theorem state_of_head? {since before : List Condition}
    (equal : ∀ c ∈ since, c.state = turn.state) (latest : (since ++ turn :: before).head? = some c) :
    c.state = turn.state := by
  cases since with
  | nil =>
    cases latest
    rfl
  | cons first rest =>
    cases latest
    exact equal _ List.mem_cons_self

theorem LastTurn.turned (last : LastTurn log turn) (other : c.state ≠ turn.state) :
    LastTurn (c :: log) c := by
  obtain ⟨since, before, rfl, equal, -⟩ := last
  refine ⟨[], _, rfl, fun _ inside => (nomatch inside), fun previous latest => ?_⟩
  exact (state_of_head? equal latest).symm ▸ other.symm

/-- No log has two last turns. -/
theorem LastTurn.unique {turn' : Condition} (last : LastTurn log turn)
    (last' : LastTurn log turn') : turn = turn' := by
  obtain ⟨since, before, rfl, equal, differs⟩ := last
  obtain ⟨since', before', split, equal', differs'⟩ := last'
  induction since generalizing since' with
  | nil =>
    cases since' with
    | nil => exact (List.cons.inj split).1
    | cons first rest =>
      -- The first turn would be followed by one more of the same state.
      obtain ⟨rfl, rfl⟩ := List.cons.inj split
      obtain ⟨here, others⟩ := List.forall_mem_cons.1 equal'
      obtain ⟨c, latest⟩ := exists_latest rest before' turn'
      exact absurd ((state_of_head? others latest).trans here.symm) (differs c latest)
  | cons first rest ih =>
    obtain ⟨here, others⟩ := List.forall_mem_cons.1 equal
    cases since' with
    | nil =>
      obtain ⟨rfl, rfl⟩ := List.cons.inj split
      obtain ⟨c, latest⟩ := exists_latest rest before turn
      exact absurd ((state_of_head? others latest).trans here.symm) (differs' c latest)
    | cons first' rest' =>
      exact ih others rest' (List.cons.inj split).2 (List.forall_mem_cons.1 equal').2

end Turns

/-- The slots tell what the passes of the log have found: nothing yet, or the last turn after all
other conditions. -/
def Tells (prior slots log : List Condition) : Prop :=
  log = [] ∧ slots = prior ∨ ∃ turn, LastTurn log turn ∧ slots = prior ++ [turn] ∧
    turn.type = "APIExportValid"

theorem Tells.set {prior slots log : List Condition} (tells : Tells prior slots log)
    (others : ∀ slot ∈ prior, slot.type ≠ "APIExportValid") (invalid : List String)
    (now : Instant) :
    Tells prior (Conditions.put (verdict invalid now) slots) (verdict invalid now :: log) := by
  have apart : ∀ slot ∈ prior, slot.type ≠ (verdict invalid now).type := by
    simpa only [verdict_type] using others
  right
  rcases tells with ⟨rfl, rfl⟩ | ⟨turn, last, rfl, type⟩
  · refine ⟨_, lastTurn_first _, ?_, verdict_type ..⟩
    have placed := Conditions.put_append apart []
    rwa [List.append_nil] at placed
  · rw [Conditions.put_append apart,
      Conditions.put_cons_of_eq (type.trans (verdict_type ..).symm)]
    by_cases same : turn.state = (verdict invalid now).state
    · rw [Condition.after_eq_self_iff.2 same]
      exact ⟨turn, last.kept same.symm, rfl, type⟩
    · rw [Condition.after_of_ne same]
      exact ⟨_, last.turned (Ne.symm same), rfl, verdict_type ..⟩

/-- An entry from when it was stored with conditions of other types. The log has the verdicts of the
passes over it that have ended well, the latest first. Only these passes write its status. -/
inductive Lifetime (partition : Partition) (name : String) (prior : List Condition) :
    Memory → List Condition → Prop where
  | stored {s entry} : s.Reachable → s.getEntry partition name = .ok entry →
      entry.status.conditions = ⟨prior⟩ → (∀ slot ∈ prior, slot.type ≠ "APIExportValid") →
      Lifetime partition name prior s []
  | changed {s log} (op : Operation) : Lifetime partition name prior s log →
      KeepsStatus partition name s (op.apply s) → Lifetime partition name prior (op.apply s) log
  | passed {s log policy now nameSpace outcome s'} : Lifetime partition name prior s log →
      PassRun partition name s (reconcile policy now ⟨partition, nameSpace, name⟩) (.ok outcome)
        s' →
      Lifetime partition name prior s' (verdict outcome.invalidReferences now :: log)
  | failed {s log policy now nameSpace e s'} : Lifetime partition name prior s log →
      PassRun partition name s (reconcile policy now ⟨partition, nameSpace, name⟩) (.error e) s' →
      Lifetime partition name prior s' log

section Lifetimes

variable {partition : Partition} {name : String} {prior log : List Condition} {s s' : Memory}

theorem Lifetime.others (life : Lifetime partition name prior s log) :
    ∀ slot ∈ prior, slot.type ≠ "APIExportValid" := by
  induction life with
  | stored _ _ _ others => exact others
  | changed _ _ _ ih => exact ih
  | passed _ _ ih => exact ih
  | failed _ _ ih => exact ih

/-- Each pass finds what the log told before it. -/
theorem Lifetime.tells (life : Lifetime partition name prior s log) :
    s.Keyed ∧ ∃ status, s.HasStatus partition name status ∧
      Tells prior status.conditions.slots log := by
  induction life with
  | stored reachable found own =>
    exact ⟨reachable.keyed, _, ⟨_, found, rfl⟩, .inl ⟨rfl, by rw [own]⟩⟩
  | changed op _ keeps ih =>
    obtain ⟨keyed, status, has, tells⟩ := ih
    exact ⟨keyed.operate op, status, keeps status has, tells⟩
  | passed life run ih =>
    obtain ⟨keyed, status, has, tells⟩ := ih
    obtain ⟨keyed', status', has', judged⟩ := run.judges has keyed
    refine ⟨keyed', status', has', ?_⟩
    rw [show status'.conditions = _ from judged]
    exact tells.set life.others ..
  | failed _ run ih =>
    obtain ⟨keyed, status, has, tells⟩ := ih
    obtain ⟨keyed', status', has', judged⟩ := run.judges has keyed
    refine ⟨keyed', status', has', ?_⟩
    rw [show status'.conditions = _ from judged]
    exact tells

theorem Lifetime.passed_alone {policy : SchemaPolicy} {now : Instant} {nameSpace : Option String}
    {outcome : Outcome} (life : Lifetime partition name prior s log)
    (ended : (s.pass policy now ⟨partition, nameSpace, name⟩).1 = .ok outcome) :
    Lifetime partition name prior (s.pass policy now ⟨partition, nameSpace, name⟩).2
      (verdict outcome.invalidReferences now :: log) := by
  have run := passRun_run partition name s (reconcile policy now ⟨partition, nameSpace, name⟩)
  change PassRun partition name s _ (s.pass policy now ⟨partition, nameSpace, name⟩).1
    (s.pass policy now ⟨partition, nameSpace, name⟩).2 at run
  rw [ended] at run
  exact life.passed run

/-- Once a pass over the entry has ended well, its conditions are those that it was stored with and
one more at their end. Of the passes that have ended well, that one is the verdict of the last one
that came to another verdict than the pass before it, or of the first one, with the reading of the
clock in that pass. -/
theorem transition_times_true (life : Lifetime partition name prior s log) (passed : log ≠ []) :
    ∃ stored turn, s.getEntry partition name = .ok stored ∧ LastTurn log turn ∧
      stored.status.conditions.slots = prior ++ [turn] := by
  obtain ⟨-, status, ⟨stored, found, rfl⟩, tells⟩ := life.tells
  rcases tells with ⟨none, -⟩ | ⟨turn, last, slots, -⟩
  · exact absurd none passed
  · exact ⟨stored, turn, found, last, slots⟩

end Lifetimes

namespace Sample

def nine : Instant := ⟨⟨2024, 5, 1, 9, 0, 0, 0⟩, by decide⟩

def eight : Instant := ⟨⟨2024, 5, 1, 8, 0, 0, 0⟩, by decide⟩

def ten : Instant := ⟨⟨2024, 5, 1, 10, 0, 0, 0⟩, by decide⟩

def ready : Condition := .holding "Ready" .epoch

/-- The entry, with a condition that is not about its references. -/
def announced : Memory :=
  (store.putEntry .root { tools with status := ⟨[], [], ⟨[ready]⟩⟩ }).2

/-- The export that was missing is there after the first pass. -/
def completed : Memory :=
  ((announced.pass .drop nine request).2.putExport .root ⟨.named "gadgets", [], []⟩).2

/-- Between the other two passes an export gets further schemas. The clock was put back. -/
def extended : Memory :=
  ((completed.pass .drop eight request).2.putExport .root
    ⟨.named "gadgets", ["v1.gadgets.example.io"], []⟩).2

end Sample

/-- All three passes write. The time is that of the second one, although the clock of the first one
was ahead of it. -/
theorem transition_times_true_sample :
    (Sample.extended.pass .drop Sample.ten Sample.request).1 = .ok (.statusUpdated 8 []) ∧
      ∃ stored, (Sample.extended.pass .drop Sample.ten Sample.request).2.getEntry .root "tools" =
          .ok stored ∧
        stored.status.conditions.slots = [Sample.ready, verdict [] Sample.eight] := by
  have first : (Sample.announced.pass .drop Sample.nine Sample.request).1 =
      .ok (.statusUpdated 4 ["root/gadgets"]) := by decide +kernel
  have second : (Sample.completed.pass .drop Sample.eight Sample.request).1 =
      .ok (.statusUpdated 6 []) := by decide +kernel
  have third : (Sample.extended.pass .drop Sample.ten Sample.request).1 =
      .ok (.statusUpdated 8 []) := by decide +kernel
  have start : Lifetime .root "tools" [Sample.ready] Sample.announced [] :=
    .stored (.operated (.mutate (.putEntry .root _)) Sample.reachable)
      (getEntry_eq_ok.2 (Table.get?_insert_self ..)) rfl (by decide)
  have completed : Lifetime .root "tools" [Sample.ready] Sample.completed _ :=
    (start.passed_alone first).changed (.mutate (.putExport .root _)) (keepsStatus_of_entries rfl)
  have extended : Lifetime .root "tools" [Sample.ready] Sample.extended _ :=
    (completed.passed_alone second).changed (.mutate (.putExport .root _))
      (keepsStatus_of_entries rfl)
  obtain ⟨stored, turn, found, last, slots⟩ :=
    transition_times_true (extended.passed_alone third) (by simp)
  have eight : LastTurn
      [verdict [] Sample.ten, verdict [] Sample.eight, verdict ["root/gadgets"] Sample.nine]
      (verdict [] Sample.eight) :=
    ((lastTurn_first _).turned (by decide)).kept (by decide)
  rw [last.unique eight] at slots
  exact ⟨third, stored, found, slots⟩

end Memory
end ApiCatalog
