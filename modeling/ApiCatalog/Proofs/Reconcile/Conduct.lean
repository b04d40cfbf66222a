import ApiCatalog.Proofs.Reconcile.Stage

/-!
# What a pass asks of a store

A pass that nothing cancels, whatever the store answers: each call may be given any object or any
error, and no two answers need to fit together. Main statement: the pass fetches the entry, looks
its references up in their order and makes at most one write, and it fails only if the fetch or the
write does (`pass_conduct`).
-/
namespace ApiCatalog

/-- A call that was made, and what was answered. -/
structure Exchange where
  call : Call
  answer : call.Answer

namespace Pass

open Memory (resolving derive_commit_eq resolving_cons resolving_nil)

section Unguarded

variable {m : Type → Type} [Monad m] [LawfulMonad m] {α : Type}

/-- Under a signal that never comes up all steps are made. -/
theorem runGuarded_never (perform : (step : Step) → m step.Answer)
    (p : Program Step.Answer α) :
    runGuarded (pure false) (fun step => some <$> perform step) p = some <$> p.run perform := by
  induction p with
  | done a => simp [runGuarded]
  | ask step next ih => simp [runGuarded, ih]

end Unguarded

section Running

variable {σ : Type} (serve : (c : Call) → StateM σ c.Answer)

/-- Answers a call and puts it on record. -/
def record (c : Call) : StateM (σ × List Exchange) c.Answer := fun w =>
  ((serve c w.1).1, (serve c w.1).2, w.2 ++ [⟨c, (serve c w.1).1⟩])

def onRecord (step : Step) : StateM (σ × List Exchange) step.Answer :=
  (step.calls lookup).run (record serve)

/-- One pass, which no signal cancels. -/
def conduct (policy : SchemaPolicy) (now : Instant) (request : Request) :
    StateM (σ × List Exchange) (Except PassError Outcome) :=
  settle <$> runGuarded (pure false) (fun step => some <$> onRecord serve step)
    (reconcile policy now request)

theorem conduct_eq (policy : SchemaPolicy) (now : Instant) (request : Request) :
    conduct serve policy now request = (reconcile policy now request).run (onRecord serve) := by
  rw [conduct, runGuarded_never]
  simp [settle]

end Running

/-- What a reference adds to the status by the answer to its look-up. -/
def looked (reference : ExportReference) : Except StoreError ApiExport → Contribution
  | .ok e => .resolved e
  | .error _ => .unresolved reference

theorem looked_eq (reference : ExportReference) (answer : Except StoreError ApiExport) :
    looked reference answer = (Resolution.ofAnswer answer).contribution reference := by
  rw [Memory.contribution_ofAnswer]
  cases answer <;> rfl

/-- The look-ups of references, in their order, and what these add to the status. A reference is
asked about if its path is that of a partition, and once. -/
inductive LooksUp (nameSpace : Option String) :
    List ExportReference → List Exchange → List Contribution → Prop where
  | none : LooksUp nameSpace [] [] []
  | unasked {reference : ExportReference} {references : List ExportReference}
      {exchanges : List Exchange} {contributions : List Contribution}
      (malformed : ¬IsPath reference.path) :
      LooksUp nameSpace references exchanges contributions →
      LooksUp nameSpace (reference :: references) exchanges
        (.unresolved reference :: contributions)
  | asked {reference : ExportReference} {references : List ExportReference}
      {exchanges : List Exchange} {contributions : List Contribution}
      (valid : IsPath reference.path) (answer : Except StoreError ApiExport) :
      LooksUp nameSpace references exchanges contributions →
      LooksUp nameSpace (reference :: references)
        (⟨.getExport ⟨reference.path, valid⟩ nameSpace reference.exportName, answer⟩ :: exchanges)
        (looked reference answer :: contributions)

/-- The call that a reference needs. -/
def lookupCall? (nameSpace : Option String) (reference : ExportReference) : Option Call :=
  if valid : IsPath reference.path then
    some (.getExport ⟨reference.path, valid⟩ nameSpace reference.exportName)
  else none

section Calls

variable {nameSpace : Option String} {references : List ExportReference}
variable {exchanges : List Exchange} {contributions : List Contribution}

theorem LooksUp.calls (looks : LooksUp nameSpace references exchanges contributions) :
    exchanges.map Exchange.call = references.filterMap (lookupCall? nameSpace) := by
  induction looks with
  | none => rfl
  | unasked malformed _ ih => rw [ih, List.filterMap_cons_none (dif_neg malformed)]
  | asked valid answer _ ih =>
    rw [List.filterMap_cons_some (dif_pos valid), List.map_cons, ih]

/-- Looking references up writes nothing. -/
theorem LooksUp.not_mem (looks : LooksUp nameSpace references exchanges contributions)
    (partition : Partition) (entry : CatalogEntry) (answer : Except StoreError CatalogEntry) :
    ⟨.updateEntryStatus partition entry, answer⟩ ∉ exchanges := by
  intro member
  have asked : Call.updateEntryStatus partition entry ∈ exchanges.map Exchange.call :=
    List.mem_map_of_mem member
  rw [looks.calls] at asked
  obtain ⟨reference, -, call⟩ := List.mem_filterMap.1 asked
  unfold lookupCall? at call
  split at call <;> cases call

end Calls

/-- How a pass ends by the answer to its write. -/
def written (request : Request) (d : Derivation) :
    Except StoreError CatalogEntry → Except PassError Outcome
  | .ok stored => .ok (.statusUpdated stored.metadata.version d.invalidReferences)
  | .error e => .error (.commit request.display e)

/-- The calls of a pass, their answers, and how it ends. -/
inductive Conducts (policy : SchemaPolicy) (now : Instant) (request : Request) :
    List Exchange → Except PassError Outcome → Prop where
  | gone (kind key : String) :
      Conducts policy now request
        [⟨.getEntry request.partition request.name, .error (.notFound kind key)⟩] (.ok .entryGone)
  | unread (e : StoreError) (other : ∀ kind key, e ≠ .notFound kind key) :
      Conducts policy now request [⟨.getEntry request.partition request.name, .error e⟩]
        (.error (.fetch request.display e))
  /-- Nothing is written. -/
  | kept (entry : CatalogEntry) {lookups : List Exchange} {contributions : List Contribution}
      (looks : LooksUp request.nameSpace entry.exports lookups contributions)
      {d : Derivation}
      (derived : d = .ofContributions policy contributions entry.status.conditions now)
      (same : d.status = entry.status) :
      Conducts policy now request
        (⟨.getEntry request.partition request.name, .ok entry⟩ :: lookups)
        (.ok (.unchanged d.invalidReferences))
  /-- The derived status is written over that of the fetched entry. -/
  | wrote (entry : CatalogEntry) {lookups : List Exchange} {contributions : List Contribution}
      (looks : LooksUp request.nameSpace entry.exports lookups contributions)
      {d : Derivation}
      (derived : d = .ofContributions policy contributions entry.status.conditions now)
      (differs : d.status ≠ entry.status) (answer : Except StoreError CatalogEntry) :
      Conducts policy now request
        (⟨.getEntry request.partition request.name, .ok entry⟩ :: (lookups ++
          [⟨.updateEntryStatus request.partition { entry with status := d.status }, answer⟩]))
        (written request d answer)

section Resolving

variable {σ : Type} (serve : (c : Call) → StateM σ c.Answer)
variable (policy : SchemaPolicy) (now : Instant) (request : Request) (entry : CatalogEntry)

theorem onRecord_fetch (partition : Partition) (name : String) (w : σ) (log : List Exchange) :
    ∃ answer w', onRecord serve (.fetch partition name) (w, log) =
      (answer, w', log ++ [⟨.getEntry partition name, answer⟩]) := ⟨_, _, rfl⟩

theorem onRecord_commit (partition : Partition) (entry : CatalogEntry) (w : σ)
    (log : List Exchange) :
    ∃ answer w', onRecord serve (.commit partition entry) (w, log) =
      (answer, w', log ++ [⟨.updateEntryStatus partition entry, answer⟩]) := ⟨_, _, rfl⟩

theorem onRecord_lookup (reference : ExportReference) (nameSpace : Option String) :
    onRecord serve (.lookup reference nameSpace) =
      (lookup reference nameSpace).run (record serve) := rfl

theorem onRecord_lookup_of_isPath {reference : ExportReference} (valid : IsPath reference.path)
    (nameSpace : Option String) (w : σ) (log : List Exchange) :
    ∃ answer w', onRecord serve (.lookup reference nameSpace) (w, log) = (.ofAnswer answer, w',
      log ++ [⟨.getExport ⟨reference.path, valid⟩ nameSpace reference.exportName, answer⟩]) := by
  rw [onRecord_lookup, lookup, Partition.ofString_of_isPath valid]
  exact ⟨_, _, rfl⟩

theorem onRecord_lookup_of_not_isPath {reference : ExportReference}
    (malformed : ¬IsPath reference.path) (nameSpace : Option String) (w : σ × List Exchange) :
    ∃ reason, onRecord serve (.lookup reference nameSpace) w = (.failed reason, w) := by
  obtain ⟨e, refused⟩ := Partition.ofString_of_not_isPath malformed
  rw [onRecord_lookup, lookup, refused]
  exact ⟨_, rfl⟩

/-- The look-ups, one after the other; then the pass goes on to its commit. -/
theorem run_resolving (references : List ExportReference) (known : List Contribution) (w : σ)
    (log : List Exchange) :
    ∃ exchanges contributions w',
      LooksUp request.nameSpace references exchanges contributions ∧
      (resolving policy now request entry known references).run (onRecord serve) (w, log) =
        (commit request entry (.ofContributions policy (known ++ contributions)
          entry.status.conditions now)).run (onRecord serve) (w', log ++ exchanges) := by
  -- What is known so far and the record grow with each look-up, and so does the state of the store.
  induction references generalizing known w log with
  | nil =>
    refine ⟨[], [], w, .none, ?_⟩
    rw [resolving_nil, List.append_nil, List.append_nil]
  | cons reference rest ih =>
    rw [resolving_cons, Program.run_ask_apply]
    by_cases valid : IsPath reference.path
    · obtain ⟨answer, w₁, asked⟩ :=
        onRecord_lookup_of_isPath serve valid request.nameSpace w log
      rw [asked]
      obtain ⟨exchanges, contributions, w', looks, ran⟩ :=
        ih (known ++ [looked reference answer]) w₁ _
      refine ⟨_, _, w', .asked valid answer looks, ?_⟩
      rw [← List.append_cons, ← List.append_cons] at ran
      rw [← ran, looked_eq]
    · obtain ⟨reason, unasked⟩ :=
        onRecord_lookup_of_not_isPath serve valid request.nameSpace (w, log)
      rw [unasked]
      obtain ⟨exchanges, contributions, w', looks, ran⟩ :=
        ih (known ++ [.unresolved reference]) w log
      refine ⟨_, _, w', .unasked valid looks, ?_⟩
      rw [← List.append_cons] at ran
      exact ran

theorem run_commit (d : Derivation) (w : σ) (log : List Exchange) :
    (d.status = entry.status ∧
      (commit request entry d).run (onRecord serve) (w, log) =
        (.ok (.unchanged d.invalidReferences), w, log)) ∨
    (d.status ≠ entry.status ∧ ∃ answer w',
      (commit request entry d).run (onRecord serve) (w, log) =
        (written request d answer, w', log ++
          [⟨.updateEntryStatus request.partition { entry with status := d.status }, answer⟩])) := by
  unfold commit
  by_cases same : d.status = entry.status
  · rw [if_pos same]
    exact .inl ⟨same, rfl⟩
  · obtain ⟨answer, w', put⟩ := onRecord_commit serve request.partition
      { entry with status := d.status } w log
    rw [if_neg same, Program.run_ask_apply, put]
    refine .inr ⟨same, answer, w', ?_⟩
    cases answer <;> rfl

/-- A pass is conducted in one of these ways. -/
theorem conducts (w : σ) : ∃ result w' log,
    conduct serve policy now request (w, []) = (result, w', log) ∧
      Conducts policy now request log result := by
  obtain ⟨fetched, w₁, asked⟩ := onRecord_fetch serve request.partition request.name w []
  rw [conduct_eq, reconcile, Program.run_ask_apply, asked]
  cases fetched with
  | error e =>
    by_cases absent : e.isNotFound = true
    · obtain ⟨kind, key, rfl⟩ := StoreError.isNotFound_iff.1 absent
      exact ⟨_, _, _, rfl, .gone kind key⟩
    · have other (kind key : String) : e ≠ .notFound kind key := fun same =>
        absent (StoreError.isNotFound_iff.2 ⟨kind, key, same⟩)
      dsimp only
      rw [if_neg absent]
      exact ⟨_, _, _, rfl, .unread e other⟩
  | ok entry =>
    dsimp only
    rw [derive_commit_eq]
    obtain ⟨lookups, contributions, w₂, looks, ran⟩ :=
      run_resolving serve policy now request entry entry.exports [] w₁
        [⟨.getEntry request.partition request.name, .ok entry⟩]
    rw [List.nil_append, ran, List.nil_append]
    rcases run_commit serve request entry (.ofContributions policy contributions
      entry.status.conditions now) w₂ _ with ⟨same, ended⟩ | ⟨differs, answer, w', ended⟩
    · exact ⟨_, _, _, ended, .kept entry looks rfl same⟩
    · exact ⟨_, _, _, ended, .wrote entry looks rfl differs answer⟩

end Resolving

section Ends

variable {policy : SchemaPolicy} {now : Instant} {request : Request} {log : List Exchange}
variable {result : Except PassError Outcome} {fetched : Except StoreError CatalogEntry}
variable {rest : List Exchange}

theorem Conducts.starts (conducted : Conducts policy now request log result) :
    ∃ fetched rest, log = ⟨.getEntry request.partition request.name, fetched⟩ :: rest := by
  cases conducted <;> exact ⟨_, _, rfl⟩

theorem Conducts.calls {entry : CatalogEntry} (conducted : Conducts policy now request
    (⟨.getEntry request.partition request.name, .ok entry⟩ :: rest) result) :
    ∃ commits, rest.map Exchange.call =
        entry.exports.filterMap (lookupCall? request.nameSpace) ++ commits ∧
      (commits = [] ∨ ∃ status, status ≠ entry.status ∧
        commits = [.updateEntryStatus request.partition { entry with status }]) := by
  cases conducted with
  | kept _ looks derived same => exact ⟨[], by rw [looks.calls, List.append_nil], .inl rfl⟩
  | wrote _ looks derived differs answer =>
    exact ⟨_, by rw [List.map_append, looks.calls]; rfl, .inr ⟨_, differs, rfl⟩⟩

theorem Conducts.gone_iff (conducted : Conducts policy now request
    (⟨.getEntry request.partition request.name, fetched⟩ :: rest) result) :
    result = .ok .entryGone ↔ ∃ kind key, fetched = .error (.notFound kind key) := by
  cases conducted with
  | gone kind key => simp
  | unread e other => simp [other]
  | kept => simp
  | wrote entry looks derived differs answer => cases answer <;> simp [written]

theorem Conducts.fetch_iff (conducted : Conducts policy now request
    (⟨.getEntry request.partition request.name, fetched⟩ :: rest) result) {key : String}
    {e : StoreError} : result = .error (.fetch key e) ↔
      key = request.display ∧ fetched = .error e ∧
        ∀ kind absent, e ≠ .notFound kind absent := by
  cases conducted with
  | gone kind key =>
    refine iff_of_false nofun ?_
    rintro ⟨-, ⟨⟩, other⟩
    exact other kind key rfl
  | unread e other =>
    constructor
    · rintro ⟨⟩
      exact ⟨rfl, rfl, other⟩
    · rintro ⟨rfl, ⟨⟩, -⟩
      rfl
  | kept => simp
  | wrote entry looks derived differs answer => cases answer <;> simp [written]

theorem Conducts.commit_iff (conducted : Conducts policy now request
    (⟨.getEntry request.partition request.name, fetched⟩ :: rest) result) {key : String}
    {e : StoreError} : result = .error (.commit key e) ↔ key = request.display ∧
      ∃ entry, ⟨.updateEntryStatus request.partition entry, .error e⟩ ∈ rest := by
  cases conducted with
  | gone | unread => simp
  | kept entry looks => simp [looks.not_mem]
  | wrote entry looks derived differs answer =>
    cases answer with
    | ok stored => simp [looks.not_mem, written]
    | error refused =>
      constructor
      · rintro ⟨⟩
        exact ⟨rfl, _, List.mem_append_right _ List.mem_cons_self⟩
      · rintro ⟨rfl, _, member⟩
        have last := (List.mem_append.1 member).resolve_left (looks.not_mem _ _ _)
        cases List.mem_singleton.1 last
        rfl

/-- Only the fetch and the write make a pass fail. -/
theorem Conducts.error_cases {error : PassError}
    (conducted : Conducts policy now request log (.error error)) :
    (∃ e, error = .fetch request.display e) ∨ ∃ e, error = .commit request.display e := by
  generalize ended : Except.error error = result at conducted
  cases conducted with
  | gone | kept => cases ended
  | unread e other =>
    cases ended
    exact .inl ⟨e, rfl⟩
  | wrote entry looks derived differs answer =>
    cases answer <;> cases ended
    exact .inr ⟨_, rfl⟩

/-- A pass fails with a conflict exactly if its write is answered by one. -/
theorem Conducts.conflict_iff {error : PassError} (conducted : Conducts policy now request
    (⟨.getEntry request.partition request.name, fetched⟩ :: rest) (.error error)) :
    error.isConflict = true ↔ ∃ entry kind key expected actual,
      ⟨.updateEntryStatus request.partition entry,
        .error (.conflict kind key expected actual)⟩ ∈ rest := by
  constructor
  · intro conflicts
    rcases conducted.error_cases with ⟨e, rfl⟩ | ⟨e, rfl⟩
    · cases conflicts
    · obtain ⟨kind, key, expected, actual, rfl⟩ := StoreError.isConflict_iff.1 conflicts
      obtain ⟨-, entry, refused⟩ := conducted.commit_iff.1 rfl
      exact ⟨entry, kind, key, expected, actual, refused⟩
  · rintro ⟨entry, kind, key, expected, actual, refused⟩
    cases conducted.commit_iff.2 ⟨rfl, entry, refused⟩
    rfl

end Ends

/-- Before any store, a pass that nothing cancels first fetches the entry. If it gets one, it asks
for an export for each reference with a path of a partition, in their order and in the namespace of
the request, and then at most writes the entry back with another status, the derived one; if it
gets none, it asks for nothing else. The entry is gone exactly if the fetch finds none. The pass
fails exactly if the fetch fails otherwise, or if the write does, and then with that error and the
key of the request; so no look-up makes it fail. -/
theorem pass_conduct {σ : Type} (serve : (c : Call) → StateM σ c.Answer) (policy : SchemaPolicy)
    (now : Instant) (request : Request) (w : σ) :
    ∃ result w' fetched rest,
      conduct serve policy now request (w, []) =
        (result, w', ⟨.getEntry request.partition request.name, fetched⟩ :: rest) ∧
      Conducts policy now request
        (⟨.getEntry request.partition request.name, fetched⟩ :: rest) result ∧
      (∀ e, fetched = .error e → rest = []) ∧
      (∀ entry, fetched = .ok entry → ∃ commits,
        rest.map Exchange.call =
          entry.exports.filterMap (lookupCall? request.nameSpace) ++ commits ∧
        (commits = [] ∨ ∃ status, status ≠ entry.status ∧
          commits = [.updateEntryStatus request.partition { entry with status }])) ∧
      (result = .ok .entryGone ↔ ∃ kind key, fetched = .error (.notFound kind key)) ∧
      (∀ key e, result = .error (.fetch key e) ↔ key = request.display ∧ fetched = .error e ∧
        ∀ kind absent, e ≠ .notFound kind absent) ∧
      (∀ key e, result = .error (.commit key e) ↔ key = request.display ∧
        ∃ entry, ⟨.updateEntryStatus request.partition entry, .error e⟩ ∈ rest) ∧
      ∀ error, result = .error error →
        ((∃ e, error = .fetch request.display e) ∨ ∃ e, error = .commit request.display e) ∧
        (error.isConflict = true ↔ ∃ entry kind key expected actual,
          ⟨.updateEntryStatus request.partition entry,
            .error (.conflict kind key expected actual)⟩ ∈ rest) := by
  obtain ⟨result, w', log, ran, conducted⟩ := conducts serve policy now request w
  obtain ⟨fetched, rest, rfl⟩ := conducted.starts
  refine ⟨result, w', fetched, rest, ran, conducted, ?_, ?_, conducted.gone_iff,
    fun _ _ => conducted.fetch_iff, fun _ _ => conducted.commit_iff, ?_⟩
  · rintro e rfl
    cases conducted <;> rfl
  · rintro entry rfl
    exact conducted.calls
  · rintro error rfl
    exact ⟨conducted.error_cases, conducted.conflict_iff⟩

namespace Sample

/-- The path of its second reference is not one of a partition. -/
def tools : CatalogEntry :=
  ⟨.named "tools", [⟨"root", "widgets"⟩, ⟨"Root", "gadgets"⟩], "", .empty⟩

/-- There is one entry. Its exports cannot be read, and somebody else has changed its status. -/
def contrary : (c : Call) → StateM Unit c.Answer
  | .getEntry _ name =>
    pure (if name = "tools" then .ok tools else .error (.notFound "CatalogEntry" name))
  | .updateEntryStatus .. => pure (.error (.conflict "CatalogEntry" "tools" 1 2))
  | c => pure (c.failed (.unavailable "busy"))

def overtaken : PassError := .commit "root/tools" (.conflict "CatalogEntry" "tools" 1 2)

end Sample

/-- The look-up does not make the pass fail, but the write does. Another entry is gone. -/
theorem pass_conduct_sample :
    let ended := conduct Sample.contrary .drop .epoch ⟨.root, none, "tools"⟩ ((), [])
    ended.1 = .error Sample.overtaken ∧ ended.2.2.length = 3 ∧
      Sample.overtaken.isConflict = true ∧
      (conduct Sample.contrary .drop .epoch ⟨.root, none, "rules"⟩ ((), [])).1 =
        .ok .entryGone := by
  intro ended
  have plain : ended = _ := congrFun (conduct_eq ..) _
  obtain ⟨result, _, fetched, rest, ran, -, -, -, -, -, commit, conflict⟩ :=
    pass_conduct Sample.contrary .drop .epoch ⟨.root, none, "tools"⟩ ()
  obtain ⟨outcome, _, answer, _, missed, -, -, -, gone, -⟩ :=
    pass_conduct Sample.contrary .drop .epoch ⟨.root, none, "rules"⟩ ()
  have refused : ∃ entry, ⟨.updateEntryStatus .root entry,
      .error (.conflict "CatalogEntry" "tools" 1 2)⟩ ∈ rest := by
    have behind : rest = [_, ⟨.updateEntryStatus .root _, _⟩] :=
      (congrArg (·.2.2.tail) ran).symm.trans (congrArg (·.2.2.tail) plain)
    rw [behind]
    exact ⟨_, List.mem_cons_of_mem _ List.mem_cons_self⟩
  have absent : answer = .error (.notFound "CatalogEntry" "rules") := by
    rw [conduct_eq] at missed
    have first : (⟨.getEntry .root "rules", answer⟩ : Exchange) = ⟨.getEntry .root "rules", _⟩ :=
      (List.cons.inj (congrArg (·.2.2) missed)).1.symm
    exact eq_of_heq (Exchange.mk.inj first).2
  have failed : result = .error Sample.overtaken := (commit _ _).2 ⟨rfl, refused⟩
  refine ⟨(congrArg Prod.fst ran).trans failed, plain ▸ rfl, ?_, ?_⟩
  · obtain ⟨entry, member⟩ := refused
    exact (conflict _ failed).2.2 ⟨entry, _, _, _, _, member⟩
  · exact (congrArg Prod.fst missed).trans (gone.2 ⟨_, _, absent⟩)

end Pass
end ApiCatalog
