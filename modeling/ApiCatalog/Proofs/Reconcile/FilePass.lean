import ApiCatalog.Proofs.Reconcile.Token

/-!
# A pass over a store with a state file

Only the commit of a pass touches the file. Main statements: a pass that ends well has done in
memory what it does without a file, and has saved what it wrote (`passOn_ok`); it does end well
while the file can be written (`passOn_of_saves`) and where there is nothing to write
(`passOn_of_idle`).
-/
namespace ApiCatalog
namespace FileStore

/-- Answers a step of a pass. No step makes up a name. -/
def perform (path : String) (step : Pass.Step) : StateT Memory (StateM Disk) step.Answer :=
  (step.calls lookup).run (answer path Disk.save (pure ""))

/-- One pass, which nothing cancels and nobody comes in between. -/
def pass (path : String) (policy : SchemaPolicy) (now : Instant) (request : ApiCatalog.Request) :
    StateT Memory (StateM Disk) (Except PassError Outcome) :=
  (reconcile policy now request).run (perform path)

/-- The steps that write nothing. -/
def Reads : Pass.Step → Prop
  | .commit .. => False
  | _ => True

section Saving

variable {δ : Type} {path : String} {save : Content → StateM δ (Except FileFault Unit)}
variable {fresh : StateM δ String} {s s' : Memory} {d d' : δ}

/-- Answers a step of a pass, whatever it takes to save the file. -/
def performOn (path : String) (save : Content → StateM δ (Except FileFault Unit))
    (fresh : StateM δ String) (step : Pass.Step) : StateT Memory (StateM δ) step.Answer :=
  (step.calls lookup).run (answer path save fresh)

/-- One pass, whatever it takes to save the file. -/
def passOn (path : String) (save : Content → StateM δ (Except FileFault Unit))
    (fresh : StateM δ String) (policy : SchemaPolicy) (now : Instant)
    (request : ApiCatalog.Request) : StateT Memory (StateM δ) (Except PassError Outcome) :=
  (reconcile policy now request).run (performOn path save fresh)

theorem performOn_fetch (partition : Partition) (name : String) :
    performOn path save fresh (.fetch partition name) s d = ((s.getEntry partition name, s), d) :=
  rfl

theorem performOn_commit (partition : Partition) (entry : CatalogEntry) :
    performOn path save fresh (.commit partition entry) s d =
      updateEntryStatus path save partition entry s d := rfl

theorem performOn_of_reads {step : Pass.Step} (reads : Reads step) :
    performOn path save fresh step s d = (Memory.perform step s, d) := by
  cases step with
  | fetch partition name => rfl
  | lookup reference nameSpace =>
    rw [Memory.perform_lookup]
    change (lookup reference nameSpace).run (answer path save fresh) s d = _
    unfold lookup Memory.resolution
    cases Partition.ofString reference.path with
    | error e => rfl
    | ok partition => rfl
  | commit partition entry => exact reads.elim

section Programs

variable {α β : Type}

theorem run_ask_apply (step : Pass.Step) (next : step.Answer → Program Pass.Step.Answer α) :
    (Program.ask step next).run (performOn path save fresh) s d =
      (next (performOn path save fresh step s d).1.1).run (performOn path save fresh)
        (performOn path save fresh step s d).1.2 (performOn path save fresh step s d).2 := rfl

theorem run_bind_apply (p : Program Pass.Step.Answer α) (f : α → Program Pass.Step.Answer β) :
    (p >>= f).run (performOn path save fresh) s d =
      (f (p.run (performOn path save fresh) s d).1.1).run (performOn path save fresh)
        (p.run (performOn path save fresh) s d).1.2 (p.run (performOn path save fresh) s d).2 := by
  rw [Program.run_bind]
  rfl

/-- What only reads does not notice the file. -/
theorem run_of_reads {p : Program Pass.Step.Answer α} (asks : p.Asks Reads) :
    p.run (performOn path save fresh) s d = (p.run Memory.perform s, d) := by
  induction p generalizing s d with
  | done a => rfl
  | ask step next ih =>
    rw [run_ask_apply, performOn_of_reads asks.1, Program.run_ask_apply]
    exact ih _ (asks.2 _)

end Programs

theorem asks_derive (entry : CatalogEntry) (nameSpace : Option String) (policy : SchemaPolicy)
    (now : Instant) : (Pass.derive entry nameSpace policy now).Asks Reads :=
  Program.Asks.bind (Memory.asks_resolve nameSpace entry.exports fun _ => trivial) fun _ => trivial

section Commits

variable {request : ApiCatalog.Request} {entry : CatalogEntry} {derived : Derivation}

theorem commit_ok {outcome : Outcome}
    (ended : (Pass.commit request entry derived).run (performOn path save fresh) s d =
      ((.ok outcome, s'), d')) :
    (Pass.commit request entry derived).run Memory.perform s = (.ok outcome, s') ∧
      if outcome.wroteStatus then save (.document (encode s'.snapshot)) d = (.ok (), d')
      else d' = d := by
  unfold Pass.commit at ended ⊢
  split at ended
  next same =>
    cases ended
    rw [if_pos same]
    exact ⟨rfl, rfl⟩
  next differs =>
    rw [if_neg differs, Program.run_ask_apply, Memory.perform_commit]
    rw [run_ask_apply, performOn_commit] at ended
    rcases committed : updateEntryStatus path save request.partition
      { entry with status := derived.status } s d with ⟨⟨answer, after⟩, d''⟩
    rw [committed] at ended
    cases answer with
    | error e => cases ended
    | ok stored =>
      obtain ⟨written, saved⟩ := updateEntryStatus_saved path save s d committed
      rw [written]
      cases ended
      exact ⟨rfl, saved⟩

theorem commit_of_saves {outcome : Outcome}
    (saves : ∀ content, ∃ d', save content d = (.ok (), d'))
    (ended : (Pass.commit request entry derived).run Memory.perform s = (.ok outcome, s')) :
    ∃ d', (Pass.commit request entry derived).run (performOn path save fresh) s d =
      ((.ok outcome, s'), d') := by
  unfold Pass.commit at ended ⊢
  split at ended
  next same =>
    cases ended
    rw [if_pos same]
    exact ⟨d, rfl⟩
  next differs =>
    rw [Program.run_ask_apply, Memory.perform_commit] at ended
    rw [if_neg differs, run_ask_apply, performOn_commit]
    rcases written : s.updateEntryStatus request.partition
      { entry with status := derived.status } with ⟨answer, after⟩
    rw [written] at ended
    cases answer with
    | error e => cases ended
    | ok stored =>
      obtain ⟨d', saved⟩ := saves (.document (encode after.snapshot))
      cases ended
      exact ⟨d', by rw [updateEntryStatus_of_saves path save s d written saved]; rfl⟩

theorem commit_of_idle {invalid : List String}
    (idle : (Pass.commit request entry derived).run Memory.perform s =
      (.ok (.unchanged invalid), s)) :
    (Pass.commit request entry derived).run (performOn path save fresh) s d =
      ((.ok (.unchanged invalid), s), d) := by
  unfold Pass.commit at idle ⊢
  split at idle
  next same =>
    cases idle
    rw [if_pos same]
    rfl
  next differs =>
    rw [Program.run_ask_apply, Memory.perform_commit] at idle
    rcases written : s.updateEntryStatus request.partition
      { entry with status := derived.status } with ⟨answer, after⟩
    rw [written] at idle
    cases answer with
    | error e => cases idle
    | ok stored => cases idle

end Commits

section Passes

variable {policy : SchemaPolicy} {now : Instant} {request : ApiCatalog.Request}

/-- A pass that finds the entry comes down to its commit, with a file as without. -/
theorem passOn_eq_commit {entry : CatalogEntry}
    (found : s.getEntry request.partition request.name = .ok entry) :
    passOn path save fresh policy now request s d =
      (Pass.commit request entry (s.derivation policy now request.nameSpace entry)).run
        (performOn path save fresh) s d := by
  rw [passOn, reconcile, run_ask_apply, performOn_fetch, found]
  simp only [run_bind_apply, run_of_reads (asks_derive ..), Memory.run_derive]

theorem passOn_of_missing {key : String}
    (missing : s.getEntry request.partition request.name = .error (.notFound entryKind key)) :
    passOn path save fresh policy now request s d = ((.ok .entryGone, s), d) := by
  rw [passOn, reconcile, run_ask_apply, performOn_fetch, missing]
  rfl

/-- A pass that ends well has the outcome that it has without a file, and leaves the same memory.
If it wrote a status, it saved that memory. -/
theorem passOn_ok {outcome : Outcome}
    (ended : passOn path save fresh policy now request s d = ((.ok outcome, s'), d')) :
    s.pass policy now request = (.ok outcome, s') ∧
      if outcome.wroteStatus then save (.document (encode s'.snapshot)) d = (.ok (), d')
      else d' = d := by
  cases found : s.getEntry request.partition request.name with
  | error e =>
    obtain ⟨-, rfl⟩ := Memory.getEntry_eq_error found
    rw [passOn_of_missing found] at ended
    cases ended
    exact ⟨Memory.pass_of_missing found, rfl⟩
  | ok entry =>
    rw [passOn_eq_commit found] at ended
    rw [Memory.pass_eq_commit found]
    exact commit_ok ended

/-- While the file can be written, a pass ends as without a file. -/
theorem passOn_of_saves {outcome : Outcome}
    (saves : ∀ content, ∃ d', save content d = (.ok (), d'))
    (passed : s.pass policy now request = (.ok outcome, s')) :
    ∃ d', passOn path save fresh policy now request s d = ((.ok outcome, s'), d') := by
  cases found : s.getEntry request.partition request.name with
  | error e =>
    obtain ⟨-, rfl⟩ := Memory.getEntry_eq_error found
    rw [Memory.pass_of_missing found] at passed
    cases passed
    exact ⟨d, passOn_of_missing found⟩
  | ok entry =>
    rw [Memory.pass_eq_commit found] at passed
    rw [passOn_eq_commit found]
    exact commit_of_saves saves passed

/-- A pass that has nothing to write saves nothing. -/
theorem passOn_of_idle {invalid : List String}
    (idle : s.pass policy now request = (.ok (.unchanged invalid), s)) :
    passOn path save fresh policy now request s d = ((.ok (.unchanged invalid), s), d) := by
  cases found : s.getEntry request.partition request.name with
  | error e =>
    obtain ⟨-, rfl⟩ := Memory.getEntry_eq_error found
    rw [Memory.pass_of_missing found] at idle
    cases idle
  | ok entry =>
    rw [Memory.pass_eq_commit found] at idle
    rw [passOn_eq_commit found]
    exact commit_of_idle idle

end Passes
end Saving

/-- A pass that ends well has the outcome that it has without a file, and leaves the same memory. -/
theorem pass_ok {path : String} {s s' : Memory} {disk disk' : Disk} {policy : SchemaPolicy}
    {now : Instant} {request : ApiCatalog.Request} {outcome : Outcome}
    (ended : pass path policy now request s disk = ((.ok outcome, s'), disk')) :
    s.pass policy now request = (.ok outcome, s') :=
  (passOn_ok ended).1

end FileStore
end ApiCatalog
