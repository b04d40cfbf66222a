import ApiCatalog.Proofs.Reconcile.Convergence

/-!
# Entries that need no pass

A pass without namespace makes one entry up to date and leaves every other one as up to date as it
was: a status write does not matter to what references resolve to. Main statements: the three ends
of such a pass (`pass_effect`), and that the number of outdated entries falls with each write, so
that outdated entries and published events together do not become more
(`Effect.outdatedCount_add`).
-/
namespace ApiCatalog

/-- The key of the entry that a request is about. -/
def Request.entryKey (request : Request) : ObjectKey := .cluster request.partition request.name

namespace Memory

/-- A pass over what is stored under the key, without namespace, has nothing to write. -/
def UpToDate (s : Memory) (key : ObjectKey) : Prop :=
  ∀ {entry}, s.entries.get? key = some entry → ¬Outdated s none entry

/-- An entry is stored under the key, and it is up to date. -/
def Settled (s : Memory) (key : ObjectKey) : Prop :=
  (∃ entry, s.entries.get? key = some entry) ∧ s.UpToDate key

/-- How a pass without namespace ends, and what it makes of the store. -/
inductive Effect (s : Memory) (key : ObjectKey) : Except PassError Outcome → Memory → Prop where
  | gone : s.entries.get? key = none → Effect s key (.ok .entryGone) s
  | unchanged (invalid : List String) : s.Settled key → Effect s key (.ok (.unchanged invalid)) s
  | updated {entry : CatalogEntry} (version : Version) (invalid : List String) (now : Instant) :
      s.entries.get? key = some entry → Outdated s none entry →
      Effect s key (.ok (.statusUpdated version invalid))
        (s.withStatus key entry (s.meaning none now entry))

theorem pass_effect {s : Memory} (keyed : s.Keyed) {request : Request}
    (plain : request.nameSpace = none) (policy : SchemaPolicy) (now : Instant) :
    Effect s request.entryKey (s.pass policy now request).1 (s.pass policy now request).2 := by
  cases found : s.getEntry request.partition request.name with
  | error e =>
    obtain ⟨missing, rfl⟩ := getEntry_eq_error found
    rw [pass_of_missing found]
    exact .gone missing
  | ok entry =>
    obtain ⟨name, stored⟩ := keyed.getEntry_eq_ok_iff.1 found
    have key : Stored.key request.partition entry = request.entryKey :=
      congrArg (ObjectKey.cluster request.partition) name
    rw [key] at stored
    rw [pass_of_stored keyed found, plain, key]
    split
    next same =>
      have fine := (meaning_eq_status_iff now).1 same
      refine .unchanged _ ⟨⟨entry, stored⟩, fun {other} found' => ?_⟩
      cases stored.symm.trans found'
      exact fine
    next differs =>
      have outdated : Outdated s none entry :=
        Classical.not_not.1 fun fine => differs ((meaning_eq_status_iff now).2 fine)
      exact .updated _ _ now stored outdated

section Written

variable {s : Memory} {key other : ObjectKey} {entry : CatalogEntry} {now : Instant}

/-- The status that a pass writes is up to date as soon as it is written. -/
theorem not_outdated_restamped (s : Memory) (entry : CatalogEntry) (now : Instant) :
    ¬Outdated s none (s.restamped entry (s.meaning none now entry)) :=
  (meaning_eq_status_iff now).1 (meaning_restamped s default entry none now now)

theorem settled_withStatus : (s.withStatus key entry (s.meaning none now entry)).Settled key := by
  have stored : (s.withStatus key entry (s.meaning none now entry)).entries.get? key = some _ :=
    Table.get?_insert_self s.entries key _
  refine ⟨⟨_, stored⟩, fun {other} found => ?_⟩
  cases stored.symm.trans found
  exact not_outdated_restamped s entry now

/-- A status write leaves other entries as up to date as they were. -/
theorem UpToDate.withStatus (fine : s.UpToDate other) :
    (s.withStatus key entry (s.meaning none now entry)).UpToDate other := by
  intro found stored
  rcases Table.get?_insert_cases stored with ⟨rfl, -⟩ | before
  · exact settled_withStatus.2 stored
  · exact fine before

theorem Settled.withStatus (settled : s.Settled other) :
    (s.withStatus key entry (s.meaning none now entry)).Settled other := by
  refine ⟨?_, UpToDate.withStatus settled.2⟩
  by_cases same : other = key
  · exact same ▸ settled_withStatus.1
  · obtain ⟨found, stored⟩ := settled.1
    exact ⟨found, (Table.get?_insert_ne same).trans stored⟩

/-- The number of entries that a pass without namespace would write. -/
def outdatedCount (s : Memory) : Nat :=
  s.entries.rows.countP fun row => decide (s.meaning none .epoch row.2 ≠ row.2.status)

variable (now) in
theorem outdatedCount_withStatus (stored : s.entries.get? key = some entry)
    (outdated : Outdated s none entry) :
    (s.withStatus key entry (s.meaning none now entry)).outdatedCount + 1 = s.outdatedCount := by
  obtain ⟨before, after, rows, replaced⟩ := Table.rows_insert_of_get? stored
  let test : ObjectKey × CatalogEntry → Bool :=
    fun row => decide (s.meaning none .epoch row.2 ≠ row.2.status)
  let written := s.restamped entry (s.meaning none now entry)
  have counted : test (key, entry) = true :=
    decide_eq_true fun same => (meaning_eq_status_iff .epoch).1 same outdated
  have gone : test (key, written) = false :=
    decide_eq_false fun differs =>
      differs ((meaning_eq_status_iff .epoch).2 (not_outdated_restamped s entry now))
  change (s.entries.insert key written).rows.countP test + 1 = s.entries.rows.countP test
  rw [rows, replaced, List.countP_append, List.countP_append, List.countP_cons_of_pos counted,
    List.countP_cons_of_neg (by simp [gone])]
  omega

end Written

namespace Effect

variable {s s' : Memory} {key other : ObjectKey} {result : Except PassError Outcome}

theorem ok (effect : Effect s key result s') : ∃ outcome, result = .ok outcome := by
  cases effect with
  | gone => exact ⟨_, rfl⟩
  | unchanged => exact ⟨_, rfl⟩
  | updated => exact ⟨_, rfl⟩

theorem upToDate (effect : Effect s key result s') : s'.UpToDate key := by
  cases effect with
  | gone missing => exact fun found => nomatch missing.symm.trans found
  | unchanged _ settled => exact settled.2
  | updated => exact settled_withStatus.2

theorem keeps_upToDate (effect : Effect s key result s') (fine : s.UpToDate other) :
    s'.UpToDate other := by
  cases effect with
  | gone => exact fine
  | unchanged => exact fine
  | updated => exact UpToDate.withStatus fine

theorem keeps_settled (effect : Effect s key result s') (settled : s.Settled other) :
    s'.Settled other := by
  cases effect with
  | gone => exact settled
  | unchanged => exact settled
  | updated => exact settled.withStatus

theorem settled_of_updated {version : Version} {invalid : List String}
    (effect : Effect s key (.ok (.statusUpdated version invalid)) s') : s'.Settled key := by
  cases effect
  exact settled_withStatus

theorem of_settled (effect : Effect s key result s') (settled : s.Settled key) :
    ∃ invalid, result = .ok (.unchanged invalid) := by
  obtain ⟨⟨entry, stored⟩, fine⟩ := settled
  cases effect with
  | gone missing => cases missing.symm.trans stored
  | unchanged invalid => exact ⟨invalid, rfl⟩
  | updated version invalid now found outdated => exact absurd outdated (fine found)

/-- Only an outdated entry is written. -/
theorem written (effect : Effect s key result s') : s' = s ∨
    ¬s.UpToDate key ∧ ∃ entry status, s' = s.withStatus key entry status := by
  cases effect with
  | gone => exact .inl rfl
  | unchanged => exact .inl rfl
  | @updated entry version invalid now stored outdated =>
    exact .inr ⟨fun fine => fine stored outdated, entry, _, rfl⟩

/-- Every event comes from an entry that was outdated and no longer is. -/
theorem outdatedCount_add (effect : Effect s key result s') :
    s'.outdatedCount + s'.published.length = s.outdatedCount + s.published.length := by
  cases effect with
  | gone => rfl
  | unchanged => rfl
  | updated version invalid now stored outdated =>
    have fewer := outdatedCount_withStatus now stored outdated
    rw [withStatus_published, List.length_append, List.length_singleton]
    omega

end Effect
end Memory
end ApiCatalog
