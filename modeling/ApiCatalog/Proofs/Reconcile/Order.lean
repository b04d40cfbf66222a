import ApiCatalog.Proofs.Reconcile.Locality
import ApiCatalog.Proofs.Reconcile.Settled

/-!
# The order of passes

Passes over different entries do not get in each other's way: what one of them writes no other one
reads. Main statements: after passes over different entries, each has ended as it would have alone,
and so has each entry (`worked_passEach`). Hence they may be made in any order
(`passes_in_any_order`).
-/
namespace ApiCatalog
namespace Memory

/-- A pass to be made, and the time that it reads. -/
structure Job where
  request : Request
  now : Instant

namespace Job

def key (job : Job) : ObjectKey := job.request.entryKey

/-- Whether the pass, made alone, ends with a status write. -/
def writes (policy : SchemaPolicy) (s : Memory) (job : Job) : Bool :=
  s.writes policy job.now job.request

end Job

/-- The pass of a job. -/
def work (policy : SchemaPolicy) (job : Job) : StateM Memory (Except PassError Outcome) :=
  pass policy job.now job.request

/-- Makes the passes one after the other. -/
def passEach (policy : SchemaPolicy) (jobs : List Job) :
    StateM Memory (List (Except PassError Outcome)) :=
  jobs.mapM (work policy)

section Working

variable {policy : SchemaPolicy} {s s' t : Memory} {job other : Job} {jobs : List Job}

theorem passEach_cons (s : Memory) (job : Job) (jobs : List Job) :
    passEach policy (job :: jobs) s =
      ((work policy job s).1 :: (passEach policy jobs (work policy job s).2).1,
        (passEach policy jobs (work policy job s).2).2) := by
  rw [passEach, List.mapM_cons]
  rfl

/-- What jobs leave of a store: of each entry what its own job leaves if that is done alone, and all
else as it was. -/
structure Worked (policy : SchemaPolicy) (s : Memory) (jobs : List Job) (s' : Memory) : Prop where
  keyed : s'.Keyed
  exports : s'.exports = s.exports
  bindings : s'.bindings = s.bindings
  faults : s'.faults = s.faults
  own : ∀ job ∈ jobs,
    (s'.getEntry job.request.partition job.request.name).map CatalogEntry.unversioned =
      ((work policy job s).2.getEntry job.request.partition job.request.name).map
        CatalogEntry.unversioned
  others : ∀ key, (∀ job ∈ jobs, job.key = key → job.writes policy s = false) →
    s'.entries.get? key = s.entries.get? key
  statusWrites : s'.statusWrites = s.statusWrites + jobs.countP (Job.writes policy s)

theorem worked_work (keyed : s.Keyed) (policy : SchemaPolicy) (job : Job) :
    Worked policy s [job] (work policy job s).2 where
  keyed := keyed_pass keyed policy job.now job.request
  exports := (onlyStatus_pass keyed policy job.now job.request).exports
  bindings := (onlyStatus_pass keyed policy job.now job.request).bindings
  faults := (onlyStatus_pass keyed policy job.now job.request).faults
  own other member := by rw [List.mem_singleton.1 member]
  others key idle := by
    by_cases own : job.key = key
    · have unwritten : ¬s.writes policy job.now job.request = true :=
        Bool.eq_false_iff.1 (idle job List.mem_cons_self own)
      have kept := (pass_ends policy job.now keyed job.request).2
      rw [if_neg unwritten] at kept
      exact congrArg (fun t : Memory => t.entries.get? key) kept
    · exact (onlyStatus_pass keyed policy job.now job.request).others key (Ne.symm own)
  statusWrites := by
    have counted := (pass_ends policy job.now keyed job.request).2
    rw [List.countP_singleton, Job.writes]
    split at counted
    next wrote => rwa [if_pos wrote]
    next idle =>
      rw [if_neg idle]
      exact congrArg Memory.statusWrites counted

/-- Another job finds the store as it was. -/
theorem Worked.alike (worked : Worked policy s [job] t) (apart : job.key ≠ other.key) :
    Alike other.request s t where
  entry := by
    refine getEntry_congr (worked.others other.key fun only member same => ?_)
    exact absurd (List.mem_singleton.1 member ▸ same) apart
  resolutions entry _ := sameResolutions_of_exports worked.exports worked.faults _ entry

/-- A job and then others of which none is about its entry. -/
theorem Worked.cons (keyed : s.Keyed) (first : Worked policy s [job] t)
    (rest : Worked policy t jobs s') (done : t = (work policy job s).2)
    (apart : ∀ other ∈ jobs, job.key ≠ other.key) : Worked policy s (job :: jobs) s' := by
  have alike : ∀ other ∈ jobs, Alike other.request s t :=
    fun other member => first.alike (apart other member)
  have writes : ∀ other ∈ jobs, other.writes policy t = other.writes policy s :=
    fun other member =>
      writes_congr policy ((alike other member).passes policy other.now keyed first.keyed).1
  -- What the first job writes the others do not read, and they do not write to its entry.
  refine ⟨rest.keyed, rest.exports.trans first.exports, rest.bindings.trans first.bindings,
    rest.faults.trans first.faults, fun other member => ?_, fun key idle => ?_, ?_⟩
  · rcases List.mem_cons.1 member with rfl | later
    · have kept : s'.entries.get? other.key = t.entries.get? other.key :=
        rest.others other.key fun another member same =>
          absurd same.symm (apart another member)
      rw [getEntry_congr kept, done]
    · rw [rest.own other later]
      exact ((alike other later).passes policy other.now keyed first.keyed).2
  · obtain ⟨here, later⟩ := List.forall_mem_cons.1 idle
    have kept := rest.others key fun other member same =>
      writes other member ▸ later other member same
    exact kept.trans (first.others key (List.forall_mem_singleton.2 here))
  · have counted : jobs.countP (Job.writes policy t) = jobs.countP (Job.writes policy s) :=
      List.countP_congr fun other member => by rw [writes other member]
    have first := first.statusWrites
    rw [List.countP_singleton] at first
    rw [rest.statusWrites, counted, first, List.countP_cons]
    omega

variable (policy) in
/-- Jobs about different entries end as each of them does alone. -/
theorem worked_passEach (keyed : s.Keyed) (distinct : (jobs.map Job.key).Nodup) :
    (passEach policy jobs s).1.map (Except.map Outcome.unversioned) =
        jobs.map (fun job => (work policy job s).1.map Outcome.unversioned) ∧
      Worked policy s jobs (passEach policy jobs s).2 := by
  induction jobs generalizing s with
  | nil => exact ⟨rfl, keyed, rfl, rfl, rfl, (fun _ member => nomatch member), fun _ _ => rfl, rfl⟩
  | cons job rest ih =>
    obtain ⟨new, others⟩ := List.nodup_cons.1 distinct
    have apart : ∀ other ∈ rest, job.key ≠ other.key :=
      fun other member same => new (same ▸ List.mem_map_of_mem member)
    have first := worked_work keyed policy job
    obtain ⟨outcomes, worked⟩ := ih first.keyed others
    rw [passEach_cons]
    refine ⟨?_, first.cons keyed worked rfl apart⟩
    rw [List.map_cons, List.map_cons, outcomes]
    refine congrArg _ (List.map_congr_left fun other member => ?_)
    exact ((first.alike (apart other member)).passes policy other.now keyed first.keyed).1

end Working

/-- The same objects, but for the versions of those entries that were written. -/
structure SameButVersions (written : ObjectKey → Prop) (s t : Memory) : Prop where
  entries : ∀ key, (t.entries.get? key).map CatalogEntry.unversioned =
    (s.entries.get? key).map CatalogEntry.unversioned
  unwritten : ∀ key, ¬written key → t.entries.get? key = s.entries.get? key
  exports : t.exports = s.exports
  bindings : t.bindings = s.bindings
  statusWrites : t.statusWrites = s.statusWrites

section Orders

variable {policy : SchemaPolicy} {s s₁ s₂ : Memory} {jobs others : List Job}

theorem Worked.sameButVersions (perm : jobs.Perm others) (first : Worked policy s jobs s₁)
    (second : Worked policy s others s₂) :
    SameButVersions (fun key => ∃ job ∈ jobs, job.key = key ∧ job.writes policy s = true) s₁
      s₂ := by
  refine ⟨fun key => ?_, fun key unwritten => ?_, second.exports.trans first.exports.symm,
    second.bindings.trans first.bindings.symm, ?_⟩
  · by_cases own : ∃ job ∈ jobs, job.key = key
    · obtain ⟨job, member, rfl⟩ := own
      have same := (second.own job (perm.mem_iff.1 member)).trans (first.own job member).symm
      have stored := congrArg Except.toOption same
      rwa [toOption_map_getEntry, toOption_map_getEntry] at stored
    · have kept : s₁.entries.get? key = s.entries.get? key :=
        first.others key fun job member same => absurd ⟨job, member, same⟩ own
      have kept' : s₂.entries.get? key = s.entries.get? key :=
        second.others key fun job member same =>
          absurd ⟨job, perm.mem_iff.2 member, same⟩ own
      rw [kept, kept']
  · have idle : ∀ job ∈ jobs, job.key = key → job.writes policy s = false :=
      fun job member same => Bool.eq_false_iff.2 fun wrote => unwritten ⟨job, member, same, wrote⟩
    rw [first.others key idle, second.others key fun job member => idle job (perm.mem_iff.2 member)]
  · rw [first.statusWrites, second.statusWrites, perm.countP_eq]

/-- In whatever order passes over different entries are made, each with a namespace and a time of
its own, they all end well, and the pass of each job has the same outcome, but for the version that
it gives. Afterwards the stores have the same objects, but for the versions of the entries that were
written, and have counted the same number of status writes. -/
theorem passes_in_any_order (reachable : s.Reachable) (perm : jobs.Perm others)
    (distinct : (jobs.map Job.key).Nodup) (policy : SchemaPolicy) :
    ∃ outcome : Job → Outcome,
      (passEach policy jobs s).1.map (Except.map Outcome.unversioned) =
        jobs.map (fun job => .ok (outcome job)) ∧
      (passEach policy others s).1.map (Except.map Outcome.unversioned) =
        others.map (fun job => .ok (outcome job)) ∧
      SameButVersions
        (fun key => ∃ job ∈ jobs, job.key = key ∧ (outcome job).wroteStatus = true)
        (passEach policy jobs s).2 (passEach policy others s).2 := by
  have keyed := reachable.keyed
  choose outcome ended using fun job : Job => (pass_ends policy job.now keyed job.request).1
  have alone : ∀ job, (work policy job s).1.map Outcome.unversioned =
      .ok (outcome job).unversioned :=
    fun job => congrArg (Except.map Outcome.unversioned) (ended job)
  have writes : ∀ job, job.writes policy s = (outcome job).unversioned.wroteStatus := by
    intro job
    rw [Outcome.wroteStatus_unversioned]
    exact congrArg (fun result : Except PassError Outcome =>
      result.toOption.any Outcome.wroteStatus) (ended job)
  obtain ⟨outcomes, first⟩ := worked_passEach policy keyed distinct
  obtain ⟨outcomes', second⟩ :=
    worked_passEach policy keyed ((perm.map Job.key).nodup_iff.1 distinct)
  have same := first.sameButVersions perm second
  simp only [alone] at outcomes outcomes'
  simp only [writes] at same
  exact ⟨fun job => (outcome job).unversioned, outcomes, outcomes', same⟩

end Orders

namespace Sample

/-- All that it refers to is there. -/
def manuals : CatalogEntry := ⟨.named "manuals", [⟨"root", "widgets"⟩], "", .empty⟩

def shelf : Memory := (store.putEntry .root manuals).2

theorem reachable_shelf : shelf.Reachable := .operated (.mutate (.putEntry .root manuals)) reachable

def toolsJob : Job := ⟨request, .epoch⟩

def manualsJob : Job := ⟨⟨.root, none, "manuals"⟩, ⟨⟨2024, 5, 1, 1, 0, 0, 0⟩, by decide⟩⟩

end Sample

/-- Whichever entry is written first gets the lower version; all else is the same. -/
theorem passes_in_any_order_sample :
    let first := passEach .drop [Sample.toolsJob, Sample.manualsJob] Sample.shelf
    let second := passEach .drop [Sample.manualsJob, Sample.toolsJob] Sample.shelf
    first.1 = [.ok (.statusUpdated 4 ["root/gadgets"]), .ok (.statusUpdated 5 [])] ∧
      second.1 = [.ok (.statusUpdated 4 []), .ok (.statusUpdated 5 ["root/gadgets"])] ∧
      (∀ key, (second.2.entries.get? key).map CatalogEntry.unversioned =
        (first.2.entries.get? key).map CatalogEntry.unversioned) ∧
      second.2.statusWrites = first.2.statusWrites := by
  obtain ⟨outcome, -, -, same⟩ := passes_in_any_order Sample.reachable_shelf
    (.swap Sample.manualsJob Sample.toolsJob []) (by decide) .drop
  exact ⟨by decide +kernel, by decide +kernel, same.entries, same.statusWrites⟩

end Memory
end ApiCatalog
