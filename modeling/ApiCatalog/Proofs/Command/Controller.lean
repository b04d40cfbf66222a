import ApiCatalog.Command.Controller
import ApiCatalog.Proofs.Reconcile.FilePass
import ApiCatalog.Proofs.Reconcile.Locality
import ApiCatalog.Proofs.Reconcile.Settled
import ApiCatalog.Proofs.Store.Agreement

/-!
# A run of the controller over all entries

The controller passes once over the entries of some partitions, and each pass that writes a status
writes the state file anew. Main statements: what one pass does (`pass_advances`) and what all of
them do (`reconcileOnce_advances`) if none fails; none fails while the file can be written
(`once_ends`); where nothing is outdated, a run only prints (`once_idle`). Hence a run in which
nothing fails leaves nothing to do (`once_converges`).
-/
namespace ApiCatalog

namespace CatalogEntry

/-- The entry without its version and its status. -/
def bare (e : CatalogEntry) : CatalogEntry := { e.unversioned with status := .empty }

end CatalogEntry

namespace Memory

/-- All that differs are versions and statuses of entries of the partitions, and no entry has become
outdated. -/
structure Refreshed (partitions : List Partition) (s s' : Memory) : Prop where
  exports : s'.exports = s.exports
  bindings : s'.bindings = s.bindings
  faults : s'.faults = s.faults
  others : ∀ key, key.partition ∉ partitions → s'.entries.get? key = s.entries.get? key
  bare : ∀ key,
    (s'.entries.get? key).map CatalogEntry.bare = (s.entries.get? key).map CatalogEntry.bare
  upToDate : ∀ key, s.UpToDate key → s'.UpToDate key

namespace Refreshed

variable {s t u : Memory} {first rest : List Partition}

theorem refl (partitions : List Partition) (s : Memory) : Refreshed partitions s s :=
  ⟨rfl, rfl, rfl, fun _ _ => rfl, fun _ => rfl, fun _ fine => fine⟩

theorem trans (before : Refreshed first s t) (after : Refreshed rest t u) :
    Refreshed (first ++ rest) s u where
  exports := after.exports.trans before.exports
  bindings := after.bindings.trans before.bindings
  faults := after.faults.trans before.faults
  others key outside :=
    (after.others key fun inside => outside (List.mem_append_right first inside)).trans
      (before.others key fun inside => outside (List.mem_append_left rest inside))
  bare key := (after.bare key).trans (before.bare key)
  upToDate key fine := after.upToDate key (before.upToDate key fine)

theorem mono (refreshed : Refreshed first s t) (more : first ⊆ rest) : Refreshed rest s t :=
  { refreshed with others := fun key outside =>
      refreshed.others key fun inside => outside (more inside) }

end Refreshed

theorem OnlyStatus.bare {s s' : Memory} {request : Request} (only : OnlyStatus request s s')
    (key : ObjectKey) :
    (s'.entries.get? key).map CatalogEntry.bare = (s.entries.get? key).map CatalogEntry.bare := by
  by_cases own : key = .cluster request.partition request.name
  · subst own
    rw [← toOption_map_getEntry, ← toOption_map_getEntry]
    rcases only.own with same | ⟨entry, status, version, before, after⟩
    · rw [same]
    · rw [before, after]
      rfl
  · rw [only.others key own]

theorem refreshed_pass {s : Memory} (keyed : s.Keyed) {request : Request}
    (plain : request.nameSpace = none) (policy : SchemaPolicy) (now : Instant) :
    Refreshed [request.partition] s (s.pass policy now request).2 := by
  have only := onlyStatus_pass keyed policy now request
  refine ⟨only.exports, only.bindings, only.faults, fun key outside => only.others key ?_,
    only.bare, fun key fine => (pass_effect keyed plain policy now).keeps_upToDate fine⟩
  rintro rfl
  exact outside List.mem_cons_self

theorem numbered_pass {s : Memory} (keyed : s.Keyed) (numbered : s.Numbered)
    (policy : SchemaPolicy) (now : Instant) (request : Request) :
    (s.pass policy now request).2.Numbered := by
  rcases pass_store keyed policy now request with same | ⟨entry, status, written⟩
  · exact same.symm ▸ numbered
  · have stamps : Stamps s (s.withStatus (Stored.key request.partition entry) entry status) :=
      .of_put _ (has_insert_entry rfl rfl rfl) rfl rfl
    exact written ▸ stamps.numbered numbered

end Memory

namespace Controller

open Memory (Refreshed Outdated)

/-- The surroundings of a run of the controller. -/
structure World where
  files : String → Except FileFault Content
  /-- Which of the writes to come fail, why, and what they leave in the file. -/
  mishaps : Nat → Option (FileFault × Except FileFault Content)
  /-- What the clock shows at the readings to come. -/
  readings : Nat → Instant
  printed : List String

namespace World

variable {w w' : World}

/-- The clock is read. -/
def tick (w : World) : World := { w with readings := fun n => w.readings (n + 1) }

def say (w : World) (text : String) : World := { w with printed := w.printed ++ [text] }

/-- One of the writes to come is over, and has left something in the file. -/
def put (w : World) (path : String) (content : Except FileFault Content) : World :=
  { w with
    files := fun other => if other = path then content else w.files other
    mishaps := fun n => w.mishaps (n + 1) }

def write (path : String) (content : Content) : StateM World (Except FileFault Unit) := fun w =>
  match w.mishaps 0 with
  | none => (.ok (), w.put path (.ok content))
  | some (fault, left) => (.error fault, w.put path left)

/-- A run over all entries does no more than read the clock, write and print. -/
def machine : Machine (StateM World) where
  read path := fun w => (w.files path, w)
  write := write
  print text := fun w => (.ok (), w.say text)
  flush := pure (.ok ())
  clock := pure .zero
  sleep _ := pure ()
  now := fun w => (w.readings 0, w.tick)
  suffix := pure ""
  interrupt := pure ()

theorem files_of_write {path : String} {content : Content}
    (done : write path content w = (.ok (), w')) : w'.files path = .ok content := by
  unfold write at done
  split at done
  · cases done
    exact if_pos rfl
  · cases done

/-- Every write to come succeeds. -/
def Writable (w : World) : Prop := ∀ n, w.mishaps n = none

theorem Writable.write (writable : w.Writable) (path : String) (content : Content) :
    write path content w = (.ok (), w.put path (.ok content)) := by
  unfold World.write
  rw [writable 0]

theorem Writable.put (writable : w.Writable) (path : String)
    (content : Except FileFault Content) : (w.put path content).Writable :=
  fun n => writable (n + 1)

/-- The state file of the world agrees with the store. -/
def Holds (w : World) (path : String) (s : Memory) : Prop :=
  FileStore.Faithful path s ⟨w.files path, none⟩

theorem Holds.congr {path : String} {s : Memory} (holds : w.Holds path s)
    (same : w'.files path = w.files path) : w'.Holds path s :=
  FileStore.Faithful.of_same holds (.refl s) same

/-- Nothing happens but that some lines are printed. -/
structure Prints (lines : List String) (w w' : World) : Prop where
  files : w'.files = w.files
  printed : w'.printed = w.printed ++ lines

theorem Prints.append {w₁ w₂ : World} {lines more : List String} (first : Prints lines w w₁)
    (rest : Prints more w₁ w₂) : Prints (lines ++ more) w w₂ where
  files := rest.files.trans first.files
  printed := by rw [rest.printed, first.printed, List.append_assoc]

end World

section Equations

variable (config : Config) (request : Request) (rest : List Request)
variable (partition : Partition) (others : List Partition) (s : Memory) (w : World)

theorem pass_apply : pass World.machine config request s w =
    FileStore.passOn config.statePath (World.write config.statePath) (pure "")
      config.schemaPolicy (w.readings 0) request s w.tick := rfl

theorem reconcileEach_cons : reconcileEach World.machine config (request :: rest) s w =
    let ended := pass World.machine config request s w
    let after := reconcileEach World.machine config rest ended.1.2
      (ended.2.say (report request ended.1.1 ++ "\n"))
    ((after.1.1 + if ended.1.1.toBool then 0 else 1, after.1.2), after.2) := rfl

theorem reconcileOnce_cons : reconcileOnce World.machine config (partition :: others) s w =
    let ended := reconcileEach World.machine config
      ((s.listEntries partition).map (Request.forEntry partition)) s w
    let after := reconcileOnce World.machine config others ended.1.2 ended.2
    ((ended.1.1 + after.1.1, after.1.2), after.2) := rfl

variable (partitions : List Partition)

theorem once_apply : once World.machine config partitions s w =
    let ended := reconcileOnce World.machine config partitions s w
    ((if ended.1.1 = 0 then .ok () else
      .error ⟨toString ended.1.1 ++ " catalog entries failed to reconcile", none⟩, ended.1.2),
      ended.2) := by
  unfold once
  rw [FileStore.bind_apply]
  dsimp only
  split
  · rfl
  · rfl

end Equations

section Advancing

variable {config : Config} {s s' : Memory} {w w' : World}

theorem pass_advances {request : Request} {outcome : Outcome}
    (holds : w.Holds config.statePath s) (plain : request.nameSpace = none)
    (ended : pass World.machine config request s w = ((.ok outcome, s'), w')) :
    w'.Holds config.statePath s' ∧ Refreshed [request.partition] s s' ∧
      s'.UpToDate request.entryKey := by
  rw [pass_apply] at ended
  obtain ⟨passed, saved⟩ := FileStore.passOn_ok ended
  have keyed := holds.keyed
  have effect := Memory.pass_effect keyed plain config.schemaPolicy (w.readings 0)
  have refreshed := Memory.refreshed_pass keyed plain config.schemaPolicy (w.readings 0)
  have keyed' := Memory.keyed_pass keyed config.schemaPolicy (w.readings 0) request
  have numbered := Memory.numbered_pass keyed holds.numbered config.schemaPolicy (w.readings 0)
    request
  rw [passed] at effect refreshed keyed' numbered
  refine ⟨?_, refreshed, effect.upToDate⟩
  -- The file was written from what the store is now, or neither of them has changed.
  split at saved
  · have written : FileStore.Faithful config.statePath s'
        ⟨.ok (.document (encode s'.snapshot)), none⟩ :=
      FileStore.faithful_written keyed' numbered none
    rw [← World.files_of_write saved] at written
    exact written
  next idle =>
    subst saved
    have same : s' = s := by
      cases effect with
      | gone => rfl
      | unchanged => rfl
      | updated => exact absurd rfl idle
    exact same ▸ holds

/-- If none of the passes fails, the first one has not failed, nor has one of the rest. -/
theorem reconcileEach_cons_ok {request : Request} {rest : List Request}
    (ended : reconcileEach World.machine config (request :: rest) s w = ((0, s'), w')) :
    ∃ outcome t v, pass World.machine config request s w = ((.ok outcome, t), v) ∧
      reconcileEach World.machine config rest t
        (v.say (report request (.ok outcome) ++ "\n")) = ((0, s'), w') := by
  rw [reconcileEach_cons] at ended
  rcases first : pass World.machine config request s w with ⟨⟨result, t⟩, v⟩
  rw [first] at ended
  dsimp only at ended
  rcases after : reconcileEach World.machine config rest t (v.say (report request result ++ "\n"))
    with ⟨⟨failed, u⟩, v'⟩
  rw [after] at ended
  cases result with
  | error e => cases congrArg (fun after => after.1.1) ended
  | ok outcome =>
    cases ended
    exact ⟨outcome, t, v, rfl, after⟩

theorem reconcileOnce_cons_ok {partition : Partition} {others : List Partition}
    (ended : reconcileOnce World.machine config (partition :: others) s w = ((0, s'), w')) :
    ∃ t v, reconcileEach World.machine config
        ((s.listEntries partition).map (Request.forEntry partition)) s w = ((0, t), v) ∧
      reconcileOnce World.machine config others t v = ((0, s'), w') := by
  rw [reconcileOnce_cons] at ended
  rcases first : reconcileEach World.machine config
    ((s.listEntries partition).map (Request.forEntry partition)) s w with ⟨⟨failed, t⟩, v⟩
  rw [first] at ended
  dsimp only at ended
  rcases after : reconcileOnce World.machine config others t v with ⟨⟨failed', u⟩, v'⟩
  rw [after] at ended
  obtain ⟨both, rfl⟩ := Prod.mk.inj ended
  obtain ⟨none_failed, rfl⟩ := Prod.mk.inj both
  obtain ⟨rfl, rfl⟩ := Nat.add_eq_zero_iff.1 none_failed
  exact ⟨t, v, rfl, after⟩

theorem reconcileEach_advances {partition : Partition} {entries : List CatalogEntry}
    (holds : w.Holds config.statePath s)
    (ended : reconcileEach World.machine config (entries.map (Request.forEntry partition)) s w =
      ((0, s'), w')) :
    w'.Holds config.statePath s' ∧ Refreshed [partition] s s' ∧
      ∀ entry ∈ entries, s'.UpToDate (.cluster partition entry.name) := by
  induction entries generalizing s w with
  | nil =>
    cases ended
    exact ⟨holds, .refl _ _, fun _ member => nomatch member⟩
  | cons entry rest ih =>
    obtain ⟨outcome, t, v, first, others⟩ := reconcileEach_cons_ok ended
    obtain ⟨holds, refreshed, here⟩ := pass_advances holds rfl first
    obtain ⟨holds', refreshed', there⟩ := ih (w := v.say _) (holds.congr rfl) others
    exact ⟨holds', (refreshed.trans refreshed').mono (List.append_subset.2 ⟨.refl _, .refl _⟩),
      List.forall_mem_cons.2 ⟨refreshed'.upToDate _ here, there⟩⟩

/-- Whatever is stored in the partition after its turn was listed for it. -/
theorem upToDate_of_listed {partition : Partition} (keyed : s.Keyed)
    (refreshed : Refreshed [partition] s s')
    (fine : ∀ entry ∈ s.listEntries partition, s'.UpToDate (.cluster partition entry.name))
    {key : ObjectKey} (inside : key.partition = partition) : s'.UpToDate key := by
  intro found stored
  obtain ⟨entry, before, -⟩ : ∃ entry, s.entries.get? key = some entry ∧ _ :=
    Option.map_eq_some_iff.1 ((refreshed.bare key).symm.trans (congrArg _ stored))
  have own : key = Stored.key partition entry := inside ▸ keyed.entries key entry before
  have listed : entry ∈ s.listEntries partition :=
    keyed.mem_listEntries_iff.2 (keyed.getEntry_eq_ok_iff.2 ⟨rfl, own ▸ before⟩)
  have upToDate : s'.UpToDate key := own ▸ fine entry listed
  exact upToDate stored

theorem reconcileOnce_advances {partitions : List Partition} (holds : w.Holds config.statePath s)
    (ended : reconcileOnce World.machine config partitions s w = ((0, s'), w')) :
    w'.Holds config.statePath s' ∧ Refreshed partitions s s' ∧
      ∀ key, key.partition ∈ partitions → s'.UpToDate key := by
  induction partitions generalizing s w with
  | nil =>
    cases ended
    exact ⟨holds, .refl _ _, fun _ member => nomatch member⟩
  | cons partition rest ih =>
    obtain ⟨t, v, first, others⟩ := reconcileOnce_cons_ok ended
    obtain ⟨holds', refreshed, here⟩ := reconcileEach_advances holds first
    obtain ⟨holds'', refreshed', there⟩ := ih holds' others
    refine ⟨holds'', refreshed.trans refreshed', fun key inside => ?_⟩
    -- A partition that is named again later has had its turn twice, which does no harm.
    rcases List.mem_cons.1 inside with own | later
    · exact refreshed'.upToDate key (upToDate_of_listed holds.keyed refreshed here own)
    · exact there key later

end Advancing

section Ending

variable (config : Config) {s : Memory} {w : World}

theorem pass_ends (keyed : s.Keyed) (writable : w.Writable) (request : Request) :
    ∃ outcome s' w', pass World.machine config request s w = ((.ok outcome, s'), w') ∧
      s'.Keyed ∧ w'.Writable := by
  have ticked : w.tick.Writable := writable
  obtain ⟨outcome, passed⟩ :=
    (Memory.pass_ends config.schemaPolicy (w.readings 0) keyed request).1
  have keyed' := Memory.keyed_pass keyed config.schemaPolicy (w.readings 0) request
  have saves : ∀ content, ∃ w', World.write config.statePath content w.tick = (.ok (), w') :=
    fun content => ⟨_, ticked.write config.statePath content⟩
  rw [pass_apply]
  obtain ⟨w', ended⟩ := FileStore.passOn_of_saves saves (Prod.ext passed rfl)
  refine ⟨outcome, _, w', ended, keyed', ?_⟩
  have saved := (FileStore.passOn_ok ended).2
  split at saved
  · rw [ticked.write] at saved
    cases saved
    exact ticked.put _ _
  · exact saved ▸ ticked

theorem reconcileEach_ends (requests : List Request) (keyed : s.Keyed) (writable : w.Writable) :
    ∃ s' w', reconcileEach World.machine config requests s w = ((0, s'), w') ∧
      s'.Keyed ∧ w'.Writable := by
  induction requests generalizing s w with
  | nil => exact ⟨s, w, rfl, keyed, writable⟩
  | cons request rest ih =>
    obtain ⟨outcome, t, v, first, keyed, writable⟩ := pass_ends config keyed writable request
    obtain ⟨s', w', others, ended⟩ :=
      ih (w := v.say (report request (.ok outcome) ++ "\n")) keyed writable
    refine ⟨s', w', ?_, ended⟩
    rw [reconcileEach_cons, first]
    dsimp only
    rw [others]
    rfl

theorem reconcileOnce_ends (partitions : List Partition) (keyed : s.Keyed)
    (writable : w.Writable) :
    ∃ s' w', reconcileOnce World.machine config partitions s w = ((0, s'), w') := by
  induction partitions generalizing s w with
  | nil => exact ⟨s, w, rfl⟩
  | cons partition rest ih =>
    obtain ⟨t, v, first, keyed, writable⟩ := reconcileEach_ends config
      ((s.listEntries partition).map (Request.forEntry partition)) keyed writable
    obtain ⟨s', w', others⟩ := ih keyed writable
    refine ⟨s', w', ?_⟩
    rw [reconcileOnce_cons, first]
    dsimp only
    rw [others]
    rfl

/-- A run over all entries ends well if no write of the file fails. -/
theorem once_ends {config : Config} (partitions : List Partition)
    (opens : FileStore.opened config.statePath (w.files config.statePath) = .ok s)
    (writable : w.Writable) :
    ∃ s' w', once World.machine config partitions s w = ((.ok (), s'), w') := by
  have loaded : w.Holds config.statePath s := FileStore.faithful_opened opens
  obtain ⟨s', w', ended⟩ := reconcileOnce_ends config partitions loaded.keyed writable
  refine ⟨s', w', ?_⟩
  rw [once_apply, ended]
  rfl

end Ending

section Idling

variable (config : Config) {s : Memory}

/-- What is printed about an entry that is up to date. -/
def idleLine (s : Memory) (partition : Partition) (entry : CatalogEntry) : String :=
  report (.forEntry partition entry) (.ok (.unchanged (s.unresolved none entry))) ++ "\n"

/-- What is printed by a run that finds nothing to do. -/
def idleLines (s : Memory) (partitions : List Partition) : List String :=
  partitions.flatMap fun partition => (s.listEntries partition).map (idleLine s partition)

theorem pass_idle (keyed : s.Keyed) {partition : Partition} {entry : CatalogEntry}
    (found : s.getEntry partition entry.name = .ok entry) (fine : ¬Outdated s none entry)
    (w : World) :
    pass World.machine config (.forEntry partition entry) s w =
      ((.ok (.unchanged (s.unresolved none entry)), s), w.tick) := by
  have idle := Memory.pass_of_not_outdated keyed (.forEntry partition entry) found fine
    config.schemaPolicy (w.readings 0)
  rw [pass_apply, FileStore.passOn_of_idle idle]
  rfl

theorem reconcileEach_idle (keyed : s.Keyed) {partition : Partition} {entries : List CatalogEntry}
    (fine : ∀ entry ∈ entries,
      s.getEntry partition entry.name = .ok entry ∧ ¬Outdated s none entry) (w : World) :
    ∃ after, reconcileEach World.machine config (entries.map (Request.forEntry partition)) s w =
        ((0, s), after) ∧ World.Prints (entries.map (idleLine s partition)) w after := by
  induction entries generalizing w with
  | nil => exact ⟨w, rfl, rfl, (List.append_nil _).symm⟩
  | cons entry rest ih =>
    obtain ⟨⟨found, current⟩, others⟩ := List.forall_mem_cons.1 fine
    obtain ⟨after, ended, prints⟩ := ih others (w.tick.say (idleLine s partition entry))
    have here : World.Prints [idleLine s partition entry] w
      (w.tick.say (idleLine s partition entry)) := ⟨rfl, rfl⟩
    refine ⟨after, ?_, here.append prints⟩
    rw [List.map_cons, reconcileEach_cons, pass_idle config keyed found current]
    exact congrArg
      (fun ended : (Nat × Memory) × World => ((ended.1.1 + 0, ended.1.2), ended.2)) ended

theorem reconcileOnce_idle (keyed : s.Keyed) {partitions : List Partition}
    (fine : ∀ key, key.partition ∈ partitions → s.UpToDate key) (w : World) :
    ∃ after, reconcileOnce World.machine config partitions s w = ((0, s), after) ∧
      World.Prints (idleLines s partitions) w after := by
  induction partitions generalizing w with
  | nil => exact ⟨w, rfl, rfl, (List.append_nil _).symm⟩
  | cons partition rest ih =>
    have listed : ∀ entry ∈ s.listEntries partition,
        s.getEntry partition entry.name = .ok entry ∧ ¬Outdated s none entry := by
      intro entry member
      have found := keyed.mem_listEntries_iff.1 member
      exact ⟨found, fine (.cluster partition entry.name) List.mem_cons_self
        (Memory.getEntry_eq_ok.1 found)⟩
    obtain ⟨middle, first, printed⟩ := reconcileEach_idle config keyed listed w
    obtain ⟨after, others, printed'⟩ :=
      ih (fun key inside => fine key (List.mem_cons_of_mem partition inside)) middle
    refine ⟨after, ?_, printed.append printed'⟩
    rw [reconcileOnce_cons, first]
    dsimp only
    rw [others]
    rfl

theorem once_idle (keyed : s.Keyed) {partitions : List Partition}
    (fine : ∀ key, key.partition ∈ partitions → s.UpToDate key) (w : World) :
    ∃ after, once World.machine config partitions s w = ((.ok (), s), after) ∧
      World.Prints (idleLines s partitions) w after := by
  obtain ⟨after, ended, prints⟩ := reconcileOnce_idle config keyed fine w
  refine ⟨after, ?_, prints⟩
  rw [once_apply, ended]
  rfl

end Idling

section Converging

variable {config : Config} {partitions : List Partition} {s s' : Memory} {w w' : World}

theorem reconcileOnce_of_once
    (ended : once World.machine config partitions s w = ((.ok (), s'), w')) :
    reconcileOnce World.machine config partitions s w = ((0, s'), w') := by
  rw [once_apply] at ended
  rcases all : reconcileOnce World.machine config partitions s w with ⟨⟨failed, t⟩, v⟩
  rw [all] at ended
  dsimp only at ended
  split at ended
  next none_failed =>
    cases ended
    rw [none_failed]
  · cases ended

/-- In stores with the same objects and the same failing look-ups the same entries are up to
date. -/
theorem upToDate_congr {t : Memory} (same : t.SameObjects s) (faults : t.faults = s.faults)
    {key : ObjectKey} (fine : s.UpToDate key) : t.UpToDate key := by
  intro entry stored
  rw [same.entries] at stored
  rw [(Memory.sameResolutions_of_exports same.exports faults none entry).outdated_iff]
  exact fine stored

theorem faults_of_opened {path : String} {content : Except FileFault Content}
    (opens : FileStore.opened path content = .ok s) : s.faults = .empty := by
  obtain ⟨snapshot, rfl⟩ := FileStore.exists_snapshot_of_opened opens
  rfl

/-- If a run over all entries of some partitions ends well, then every entry of the partitions is up
to date: a further pass over it finds nothing to do, at any time. All that the run has changed are
versions and statuses of these entries. The file, opened again, gives the objects that the run has
left. A second run on it, at any earlier or later time, reports every entry as unchanged and leaves
the file as it is. -/
theorem once_converges
    (opens : FileStore.opened config.statePath (w.files config.statePath) = .ok s)
    (ended : once World.machine config partitions s w = ((.ok (), s'), w')) :
    (∀ partition ∈ partitions, ∀ name entry, s'.getEntry partition name = .ok entry →
      ∀ policy now, s'.pass policy now ⟨partition, none, name⟩ =
        (.ok (.unchanged (s'.unresolved none entry)), s')) ∧
    (∀ key, key.partition ∉ partitions → s'.entries.get? key = s.entries.get? key) ∧
    (∀ key, (s'.entries.get? key).map CatalogEntry.bare =
      (s.entries.get? key).map CatalogEntry.bare) ∧
    s'.exports = s.exports ∧ s'.bindings = s.bindings ∧
    ∀ later : World, later.files config.statePath = w'.files config.statePath →
      ∃ restored after,
        FileStore.opened config.statePath (later.files config.statePath) = .ok restored ∧
        restored.SameObjects s' ∧
        once World.machine config partitions restored later = ((.ok (), restored), after) ∧
        after.files = later.files ∧
        after.printed = later.printed ++ idleLines restored partitions := by
  have loaded : w.Holds config.statePath s := FileStore.faithful_opened opens
  obtain ⟨holds, refreshed, fine⟩ := reconcileOnce_advances loaded (reconcileOnce_of_once ended)
  refine ⟨?_, refreshed.others, refreshed.bare, refreshed.exports, refreshed.bindings,
    fun later same => ?_⟩
  · intro partition inside name entry found policy now
    have current : ¬Outdated s' none entry :=
      fine (.cluster partition name) inside (Memory.getEntry_eq_ok.1 found)
    exact Memory.pass_of_not_outdated holds.keyed ⟨partition, none, name⟩ found current policy now
  · have holds' : later.Holds config.statePath s' := holds.congr same
    obtain ⟨restored, opens', objects⟩ := holds'.agrees
    -- No look-up fails in a store that was just opened, so it is as up to date as `s'`.
    have faults : restored.faults = s'.faults := by
      rw [refreshed.faults, faults_of_opened opens, faults_of_opened opens']
    obtain ⟨after, second, prints⟩ := once_idle config (objects.keyed holds.keyed)
      (fun key inside => upToDate_congr objects faults (fine key inside)) later
    exact ⟨restored, after, opens', objects, second, prints.files, prints.printed⟩

namespace Sample

/-- An entry stands twice in the file, without a version. -/
def world : World where
  files _ := .ok (.document (encode FileStore.Sample.snapshot))
  mishaps _ := none
  readings _ := .epoch
  printed := []

end Sample

/-- The partition is named twice, and its entry is written at its first turn. -/
theorem once_converges_sample :
    ∃ s' w' restored after,
      once World.machine .default [.root, .root] (.ofSnapshot FileStore.Sample.snapshot)
        Sample.world = ((.ok (), s'), w') ∧
      w'.printed = [
        "root/tools: status updated to version 3 (invalid export(s): root/widgets, root/gadgets)\n",
        "root/tools: unchanged (invalid export(s): root/widgets, root/gadgets)\n"] ∧
      FileStore.opened Config.default.statePath (w'.files Config.default.statePath) =
        .ok restored ∧
      once World.machine .default [.root, .root] restored { w' with printed := [] } =
        ((.ok (), restored), after) ∧
      after.files = w'.files ∧
      after.printed = [
        "root/tools: unchanged (invalid export(s): root/widgets, root/gadgets)\n",
        "root/tools: unchanged (invalid export(s): root/widgets, root/gadgets)\n"] := by
  have opens : FileStore.opened Config.default.statePath
      (Sample.world.files Config.default.statePath) = .ok (.ofSnapshot FileStore.Sample.snapshot) :=
    FileStore.opened_document Config.default.statePath FileStore.Sample.snapshot
  let first := once World.machine .default [.root, .root] (.ofSnapshot FileStore.Sample.snapshot)
    Sample.world
  have ended : first = ((.ok (), first.1.2), first.2) :=
    Prod.ext (Prod.ext (by decide +kernel) rfl) rfl
  obtain ⟨-, -, -, -, -, second⟩ := once_converges opens ended
  obtain ⟨restored, after, opens', -, idle, files, printed⟩ :=
    second { first.2 with printed := [] } rfl
  have again : restored = .ofSnapshot first.1.2.snapshot :=
    Except.ok.inj (opens'.symm.trans (FileStore.opened_document _ _))
  refine ⟨first.1.2, first.2, restored, after, ended, by decide +kernel, opens', idle, files, ?_⟩
  rw [printed, again]
  decide +kernel

end Converging
end Controller
end ApiCatalog
