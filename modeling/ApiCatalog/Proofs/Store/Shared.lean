import ApiCatalog.Proofs.Store.Agreement
import Mathlib.Logic.Function.Basic

/-!
# Several stores with one state file

Each instance reads the file when it is opened, and after a change it writes the whole of it from
its own memory. Main statement: what was written stays in the file as long as all who write have
opened the file since, and whoever goes on without opening it takes back what the others have
written (`written_survives_informed`). So an acknowledged write can be lost
(`stale_copy_overwrites`).
-/
namespace ApiCatalog.SharedFile

open FileStore (Disk)

/-- What a call has written. -/
inductive Effect where
  | bound (partition : Partition) (created : ApiBinding)
  | stated (partition : Partition) (name : String) (status : EntryStatus)
  deriving DecidableEq

namespace Effect

/-- The store has what was written. -/
def In : Effect → Memory → Prop
  | bound partition created, s => s.getBinding partition created.metadata.name = .ok created
  | stated partition name status, s =>
    ∃ entry, s.getEntry partition name = .ok entry ∧ entry.status = status

/-- Both are statuses of one entry. -/
def Replaces : Effect → Effect → Prop
  | stated partition name _, stated other otherName _ => partition = other ∧ name = otherName
  | _, _ => False

variable {effect : Effect} {s t : Memory}

/-- Nothing replaces a binding. -/
theorem not_replaces_bound (other : Effect) (partition : Partition) (created : ApiBinding) :
    ¬other.Replaces (bound partition created) := by
  cases other <;> exact id

theorem bound_in {partition : Partition} {created : ApiBinding} :
    (bound partition created).In s ↔
      s.bindings.get? (.cluster partition created.metadata.name) = some created :=
  Memory.getBinding_eq_ok

theorem stated_in {partition : Partition} {name : String} {status : EntryStatus} :
    (stated partition name status).In s ↔
      ∃ entry, s.entries.get? (.cluster partition name) = some entry ∧ entry.status = status := by
  simp only [In, Memory.getEntry_eq_ok]

theorem In.of_same (inside : effect.In s) (same : t.SameObjects s) : effect.In t := by
  cases effect with
  | bound partition created => rwa [bound_in, same.bindings, ← bound_in]
  | stated partition name status => rwa [stated_in, same.entries, ← stated_in]

end Effect

/-- What a call has written, by its answer. -/
def effect? : (call : Call) → call.Answer → Option Effect
  | .createBinding partition _, .ok created => some (.bound partition created)
  | .updateEntryStatus partition entry, .ok _ =>
    some (.stated partition entry.name entry.status)
  | _, _ => none

/-- The store has the effect afterwards, and all that it had before but a status that the effect
replaces. -/
structure Wrote (effect : Effect) (s s' : Memory) : Prop where
  inside : effect.In s'
  others : ∀ {other : Effect}, other.In s → ¬effect.Replaces other → other.In s'

section Calls

variable {s s' : Memory} {partition : Partition}

theorem wrote_binding {suffix : String} {binding created : ApiBinding}
    (done : s.createBinding suffix partition binding = (.ok created, s')) :
    Wrote (.bound partition created) s s' := by
  obtain ⟨rfl, free, -⟩ := Memory.createBinding_ok done
  refine ⟨Effect.bound_in.2 (Table.get?_insert_self s.bindings _ created), ?_⟩
  intro other inside _
  cases other with
  | bound place held =>
    have found := Effect.bound_in.1 inside
    refine Effect.bound_in.2 ((Table.get?_insert_ne ?_).trans found)
    intro same
    rw [same, free] at found
    cases found
  | stated place name status => exact inside

theorem wrote_status {entry updated : CatalogEntry}
    (done : s.updateEntryStatus partition entry = (.ok updated, s')) :
    Wrote (.stated partition entry.name entry.status) s s' := by
  obtain ⟨stored, found, -, rfl⟩ := Memory.updateEntryStatus_done done
  refine ⟨Effect.stated_in.2 ⟨_, Table.get?_insert_self s.entries _ _, rfl⟩, ?_⟩
  intro other inside apart
  cases other with
  | bound place held => exact inside
  | stated place name status =>
    obtain ⟨kept, there, own⟩ := Effect.stated_in.1 inside
    refine Effect.stated_in.2 ⟨kept, (Table.get?_insert_ne ?_).trans there, own⟩
    intro same
    exact apart ⟨congrArg ObjectKey.partition same.symm, congrArg ObjectKey.name same.symm⟩

variable (path suffix : String) (call : Call)

/-- What a call answers and leaves in memory does not depend on what the file holds. If it has
written something, the file is written anew from the memory; else it stays. -/
inductive Served (s s' : Memory) (reply : call.Answer) : Prop where
  | unwritten : effect? call reply = none → s'.SameObjects s →
      (∀ content, FileStore.answer path Disk.save (pure suffix) call s ⟨content, none⟩ =
        ((reply, s'), ⟨content, none⟩)) → Served s s' reply
  | wrote {effect : Effect} : effect? call reply = some effect → Wrote effect s s' →
      (∀ content, FileStore.answer path Disk.save (pure suffix) call s ⟨content, none⟩ =
        ((reply, s'), ⟨.ok (.document (encode s'.snapshot)), none⟩)) → Served s s' reply

theorem served_createBinding (binding : ApiBinding) :
    ∃ s' reply, Served path suffix (.createBinding partition binding) s s' reply := by
  let ending := if Memory.needsName binding then suffix else ""
  have answered (content : Except FileFault Content) :
      FileStore.answer path Disk.save (pure suffix) (.createBinding partition binding) s
        ⟨content, none⟩ =
      FileStore.createBinding path Disk.save ending partition binding s ⟨content, none⟩ := by
    simp only [FileStore.answer, ending]
    split <;> rfl
  rcases done : s.createBinding ending partition binding with ⟨reply, s'⟩
  refine ⟨s', reply, ?_⟩
  cases reply with
  | error e =>
    refine .unwritten rfl (Memory.sameObjects_of_not_created done) fun content => ?_
    rw [answered, FileStore.createBinding_apply, done]
  | ok created =>
    refine .wrote rfl (wrote_binding done) fun content => ?_
    rw [answered, FileStore.createBinding_apply, done]
    rfl

theorem served_updateEntryStatus (entry : CatalogEntry) :
    ∃ s' reply, Served path suffix (.updateEntryStatus partition entry) s s' reply := by
  cases read : s.getEntry partition entry.name with
  | error e =>
    refine ⟨s, .error e, .unwritten rfl (.refl s) fun content => ?_⟩
    exact FileStore.updateEntryStatus_of_error path _ s _ read
  | ok previous =>
    rcases done : s.updateEntryStatus partition entry with ⟨reply, s'⟩
    refine ⟨s', reply, ?_⟩
    cases reply with
    | error e =>
      refine .unwritten rfl (Memory.sameObjects_of_refused done) fun content => ?_
      rw [FileStore.answer, FileStore.updateEntryStatus_apply, read, done]
    | ok updated =>
      refine .wrote rfl (wrote_status done) fun content => ?_
      rw [FileStore.answer, FileStore.updateEntryStatus_apply, read, done]
      rfl

theorem served (s : Memory) : ∃ s' reply, Served path suffix call s s' reply := by
  cases call with
  | createBinding partition binding => exact served_createBinding path suffix binding
  | updateEntryStatus partition entry => exact served_updateEntryStatus path suffix entry
  | getEntry partition name => exact ⟨s, _, .unwritten rfl (.refl s) fun _ => rfl⟩
  | listEntries partition => exact ⟨s, _, .unwritten rfl (.refl s) fun _ => rfl⟩
  | getExport partition nameSpace name => exact ⟨s, _, .unwritten rfl (.refl s) fun _ => rfl⟩
  | listBindings partition => exact ⟨s, _, .unwritten rfl (.refl s) fun _ => rfl⟩
  | getBinding partition name => exact ⟨s, _, .unwritten rfl (.refl s) fun _ => rfl⟩

/-- Every object is under its own key and has a version. -/
structure Whole (s : Memory) : Prop where
  keyed : s.Keyed
  numbered : s.Numbered

variable {path suffix call}

theorem Served.whole {reply : call.Answer} (served : Served path suffix call s s' reply)
    (whole : Whole s) : Whole s' := by
  have written : FileStore.Faithful path s _ :=
    FileStore.faithful_written whole.keyed whole.numbered none
  have faithful := written.answered suffix call
  cases served with
  | unwritten _ _ answered =>
    rw [answered] at faithful
    exact ⟨faithful.keyed, faithful.numbered⟩
  | wrote _ _ answered =>
    rw [answered] at faithful
    exact ⟨faithful.keyed, faithful.numbered⟩

end Calls

/-- The file, and the memory of each instance that is open. -/
structure Joint (ι : Type) where
  content : Except FileFault Content
  memory : ι → Option Memory

namespace Joint

variable {ι : Type} [DecidableEq ι] (j : Joint ι) (who : ι)

/-- The file has this content then, and the instance this memory. -/
def put (content : Except FileFault Content) (memory : Option Memory) : Joint ι :=
  ⟨content, Function.update j.memory who memory⟩

@[simp] theorem put_content (content : Except FileFault Content) (memory : Option Memory) :
    (j.put who content memory).content = content := rfl

@[simp] theorem put_memory (content : Except FileFault Content) (memory : Option Memory) (q : ι) :
    (j.put who content memory).memory q = if q = who then memory else j.memory q :=
  Function.update_apply ..

end Joint

/-- What an instance does as a whole. -/
inductive Deed where
  | opens
  | calls (suffix : String) (call : Call)

structure Step (ι : Type) where
  who : ι
  deed : Deed

section Steps

variable {ι : Type} [DecidableEq ι] (path : String)

namespace Step

/-- The file can always be written. -/
def run (step : Step ι) (j : Joint ι) : Joint ι :=
  match step.deed with
  | .opens => j.put step.who j.content (FileStore.opened path j.content).toOption
  | .calls suffix call =>
    match j.memory step.who with
    | none => j
    | some s =>
      let after := FileStore.answer path Disk.save (pure suffix) call s ⟨j.content, none⟩
      j.put step.who after.2.content (some after.1.2)

/-- What the step has written, if its instance was told so. -/
def written? (step : Step ι) (j : Joint ι) : Option Effect :=
  match step.deed, j.memory step.who with
  | .calls suffix call, some s =>
    effect? call (FileStore.answer path Disk.save (pure suffix) call s ⟨j.content, none⟩).1.1
  | _, _ => none

/-- All that a step can do. -/
inductive Turned (step : Step ι) (j : Joint ι) : Joint ι → Option Effect → Prop where
  | opened : step.deed = .opens →
      Turned step j (j.put step.who j.content (FileStore.opened path j.content).toOption) none
  | absent : step.deed ≠ .opens → j.memory step.who = none → Turned step j j none
  | unwritten {s s' : Memory} : step.deed ≠ .opens → j.memory step.who = some s →
      (Whole s → Whole s') → s'.SameObjects s →
      Turned step j (j.put step.who j.content (some s')) none
  | wrote {s s' : Memory} {effect : Effect} : step.deed ≠ .opens → j.memory step.who = some s →
      (Whole s → Whole s') → Wrote effect s s' →
      Turned step j (j.put step.who (.ok (.document (encode s'.snapshot))) (some s')) (some effect)

theorem turned (step : Step ι) (j : Joint ι) :
    Turned path step j (step.run path j) (step.written? path j) := by
  obtain ⟨who, deed⟩ := step
  cases deed with
  | opens => exact .opened rfl
  | calls suffix call =>
    cases there : j.memory who with
    | none =>
      simp only [run, written?, there]
      exact .absent (by simp) there
    | some s =>
      obtain ⟨s', reply, served⟩ := served path suffix call s
      have whole := served.whole
      simp only [run, written?, there]
      cases served with
      | unwritten none same answered =>
        rw [answered, none]
        exact .unwritten (by simp) there whole same
      | wrote some wrote answered =>
        rw [answered, some]
        exact .wrote (by simp) there whole wrote

end Step

/-- The file and the instances after some steps, one after the other. -/
def run (steps : List (Step ι)) (j : Joint ι) : Joint ι :=
  steps.foldl (fun j step => step.run path j) j

/-- No instance is open yet. -/
def Joint.start (content : Except FileFault Content) : Joint ι := ⟨content, fun _ => none⟩

section Survival

/-- Whoever opens the file is informed. -/
def Step.informs (step : Step ι) (informed : ι → Prop) (q : ι) : Prop :=
  informed q ∨ q = step.who ∧ step.deed = .opens

/-- Only the informed write. -/
def Heeds : (ι → Prop) → Joint ι → List (Step ι) → Prop
  | _, _, [] => True
  | informed, j, step :: rest =>
    ((step.written? path j).isSome → informed step.who) ∧
      Heeds (step.informs informed) (step.run path j) rest

/-- No step writes what replaces the effect. -/
def Leaves (effect : Effect) : Joint ι → List (Step ι) → Prop
  | _, [] => True
  | j, step :: rest =>
    (∀ other, step.written? path j = some other → ¬other.Replaces effect) ∧
      Leaves effect (step.run path j) rest

def Joint.Sound (j : Joint ι) : Prop := ∀ q s, j.memory q = some s → Whole s

/-- The effect is in the file, and in the memory of all who are informed. -/
structure Safe (effect : Effect) (informed : ι → Prop) (j : Joint ι) : Prop where
  sound : j.Sound
  file : ∃ s : Memory, Whole s ∧ effect.In s ∧ j.content = .ok (.document (encode s.snapshot))
  memory : ∀ q, informed q → ∃ s, j.memory q = some s ∧ effect.In s

variable {path} {effect : Effect} {informed : ι → Prop} {j : Joint ι}

theorem Joint.Sound.put {content : Except FileFault Content} (sound : j.Sound) (who : ι)
    {memory : Option Memory} (whole : ∀ s, memory = some s → Whole s) :
    (j.put who content memory).Sound := by
  intro q s there
  rw [Joint.put_memory] at there
  split at there
  · exact whole s there
  · exact sound q s there

theorem whole_opened {content : Except FileFault Content} {s : Memory}
    (opened : (FileStore.opened path content).toOption = some s) : Whole s := by
  cases opens : FileStore.opened path content with
  | error e =>
    rw [opens] at opened
    cases opened
  | ok restored =>
    rw [opens] at opened
    cases opened
    have faithful : FileStore.Faithful path s ⟨content, none⟩ :=
      FileStore.faithful_opened opens
    exact ⟨faithful.keyed, faithful.numbered⟩

theorem Joint.Sound.step (sound : j.Sound) (step : Step ι) : (step.run path j).Sound := by
  have turned := step.turned path j
  generalize step.run path j = j', step.written? path j = written at turned ⊢
  cases turned with
  | opened => exact sound.put step.who fun s opened => whole_opened opened
  | absent => exact sound
  | unwritten _ there whole =>
    exact sound.put step.who fun s same => Option.some.inj same ▸ whole (sound _ _ there)
  | wrote _ there whole =>
    exact sound.put step.who fun s same => Option.some.inj same ▸ whole (sound _ _ there)

theorem Joint.Sound.run (sound : j.Sound) (steps : List (Step ι)) : (run path steps j).Sound := by
  induction steps generalizing j with
  | nil => exact sound
  | cons step rest ih => exact ih (sound.step step)

omit [DecidableEq ι] in
theorem sound_start (content : Except FileFault Content) : (Joint.start content : Joint ι).Sound :=
  fun _ _ there => nomatch there

/-- Whoever opens a file that has the effect has it too. -/
theorem opened_in (path : String) {s : Memory} (whole : Whole s) (inside : effect.In s) :
    ∃ restored, FileStore.opened path (.ok (.document (encode s.snapshot))) = .ok restored ∧
      effect.In restored :=
  ⟨_, FileStore.opened_document path s.snapshot,
    inside.of_same (Memory.sameObjects_restored whole.keyed whole.numbered)⟩

theorem Safe.memory_put (safe : Safe effect informed j) {who : ι}
    {content : Except FileFault Content} {memory : Option Memory} {informed' : ι → Prop}
    (own : informed' who → ∃ s, memory = some s ∧ effect.In s)
    (others : ∀ q, q ≠ who → informed' q → informed q) :
    ∀ q, informed' q → ∃ s, (j.put who content memory).memory q = some s ∧ effect.In s := by
  intro q knows
  rw [Joint.put_memory]
  split
  next same => exact own (same ▸ knows)
  next apart => exact safe.memory q (others q apart knows)

/-- What the informed write has the effect. -/
theorem Safe.step (safe : Safe effect informed j) {step : Step ι}
    (heeds : (step.written? path j).isSome → informed step.who)
    (leaves : ∀ other, step.written? path j = some other → ¬other.Replaces effect) :
    Safe effect (step.informs informed) (step.run path j) := by
  have sound : (step.run path j).Sound := safe.sound.step step
  have turned := step.turned path j
  generalize step.run path j = j', step.written? path j = written at turned heeds leaves sound ⊢
  -- Only by opening the file somebody becomes informed, and a step concerns one instance.
  have others (q : ι) (apart : q ≠ step.who) (knows : step.informs informed q) : informed q :=
    knows.resolve_right fun opens => apart opens.1
  have before (calls : step.deed ≠ .opens) (q : ι) (knows : step.informs informed q) :
      informed q :=
    knows.resolve_right fun opens => calls opens.2
  cases turned with
  | opened opens =>
    refine ⟨sound, safe.file, safe.memory_put (fun _ => ?_) others⟩
    obtain ⟨s, whole, inside, content⟩ := safe.file
    obtain ⟨restored, opened, has⟩ := opened_in path whole inside
    exact ⟨restored, by rw [content, opened]; rfl, has⟩
  | absent calls none =>
    exact ⟨sound, safe.file, fun q knows => safe.memory q (before calls q knows)⟩
  | @unwritten s s' calls there whole same =>
    refine ⟨sound, safe.file, safe.memory_put (fun knows => ⟨s', rfl, ?_⟩) others⟩
    obtain ⟨own, here, inside⟩ := safe.memory step.who (before calls _ knows)
    rw [there] at here
    cases here
    exact inside.of_same same
  | @wrote s s' _ calls there whole wrote =>
    obtain ⟨own, here, inside⟩ := safe.memory step.who (heeds rfl)
    rw [there] at here
    cases here
    -- The whole file is written from this memory, and so it has to have the effect.
    have has := wrote.others inside (leaves _ rfl)
    exact ⟨sound, ⟨s', whole (safe.sound _ _ there), has, rfl⟩,
      safe.memory_put (fun _ => ⟨s', rfl, has⟩) others⟩

theorem Safe.run (safe : Safe effect informed j) {steps : List (Step ι)}
    (heeds : Heeds path informed j steps) (leaves : Leaves path effect j steps) :
    ∃ informed', Safe effect informed' (run path steps j) := by
  induction steps generalizing informed j with
  | nil => exact ⟨informed, safe⟩
  | cons step rest ih => exact ih (safe.step heeds.1 leaves.1) heeds.2 leaves.2

theorem leaves_bound (partition : Partition) (created : ApiBinding) (steps : List (Step ι)) :
    Leaves path (.bound partition created) j steps := by
  induction steps generalizing j with
  | nil => exact trivial
  | cons step rest ih => exact ⟨fun other _ => other.not_replaces_bound partition created, ih⟩

/-- What was just written is safe with the instance that has written it. -/
theorem Joint.Sound.safe (sound : j.Sound) {step : Step ι}
    (written : step.written? path j = some effect) :
    Safe effect (· = step.who) (step.run path j) := by
  have after : (step.run path j).Sound := sound.step step
  have turned := step.turned path j
  rw [written] at turned
  generalize step.run path j = j' at turned after ⊢
  cases turned with
  | @wrote s s' _ calls there whole wrote =>
    refine ⟨after, ⟨s', whole (sound _ _ there), wrote.inside, rfl⟩, ?_⟩
    rintro q rfl
    exact ⟨s', by rw [Joint.put_memory, if_pos rfl], wrote.inside⟩

end Survival

section Loss

variable {path} {q : ι}

theorem memory_of_other {step : Step ι} (other : step.who ≠ q) (j : Joint ι) :
    (step.run path j).memory q = j.memory q := by
  have turned := step.turned path j
  generalize step.run path j = j', step.written? path j = written at turned ⊢
  cases turned with
  | absent => rfl
  | opened => rw [Joint.put_memory, if_neg (Ne.symm other)]
  | unwritten => rw [Joint.put_memory, if_neg (Ne.symm other)]
  | wrote => rw [Joint.put_memory, if_neg (Ne.symm other)]

/-- What an instance answers, remembers and writes depends on its memory alone, until it opens the
file anew. -/
theorem own_step {step : Step ι} (calls : step.deed ≠ .opens) {j k : Joint ι}
    (same : j.memory step.who = k.memory step.who) :
    step.written? path j = step.written? path k ∧
      (step.run path j).memory step.who = (step.run path k).memory step.who ∧
      ((step.written? path j).isSome → (step.run path j).content = (step.run path k).content) := by
  obtain ⟨who, deed⟩ := step
  cases deed with
  | opens => exact absurd rfl calls
  | calls suffix call =>
    dsimp only at same
    cases there : k.memory who with
    | none =>
      rw [there] at same
      simp [Step.written?, Step.run, there, same]
    | some s =>
      rw [there] at same
      obtain ⟨s', reply, served⟩ := served path suffix call s
      cases served with
      | unwritten none _ answered =>
        simp [Step.written?, Step.run, there, same, answered, none]
      | wrote some _ answered =>
        simp [Step.written?, Step.run, there, same, answered]

theorem memory_run_alone {steps : List (Step ι)}
    (calls : ∀ step ∈ steps, step.who = q → step.deed ≠ .opens) {j k : Joint ι}
    (same : j.memory q = k.memory q) :
    (run path steps j).memory q = (run path (steps.filter (·.who = q)) k).memory q := by
  induction steps generalizing j k with
  | nil => exact same
  | cons step rest ih =>
    obtain ⟨here, later⟩ := List.forall_mem_cons.1 calls
    by_cases own : step.who = q
    · subst own
      rw [List.filter_cons_of_pos (by simp)]
      exact ih later (own_step (here rfl) same).2.1
    · rw [List.filter_cons_of_neg (by simpa using own)]
      exact ih later ((memory_of_other own j).trans same)

end Loss

/-- What an instance was told to be written is still found when the file is opened after any further
steps, if only such instances write that have opened the file since, or have written it themselves;
of a status this holds until another one of the entry is written. But an instance that goes on
without opening the file answers and writes as if none of the others had done anything meanwhile, so
that its next write takes everything back that they have written. -/
theorem written_survives_informed (content : Except FileFault Content) (before : List (Step ι)) :
    let joint := run path before (.start content)
    (∀ (step : Step ι) (effect : Effect) (after : List (Step ι)),
      step.written? path joint = some effect →
      Heeds path (· = step.who) (step.run path joint) after →
      Leaves path effect (step.run path joint) after →
      ∃ restored, FileStore.opened path (run path after (step.run path joint)).content =
          .ok restored ∧ effect.In restored) ∧
    ∀ (steps : List (Step ι)) (next : Step ι), next.deed ≠ .opens →
      (∀ step ∈ steps, step.who = next.who → step.deed ≠ .opens) →
      let together := run path steps joint
      let alone := run path (steps.filter (·.who = next.who)) joint
      next.written? path together = next.written? path alone ∧
        ((next.written? path together).isSome →
          (next.run path together).content = (next.run path alone).content) := by
  intro joint
  have sound : joint.Sound := (sound_start content).run before
  constructor
  · intro step effect after written heeds leaves
    obtain ⟨informed, safe⟩ := (sound.safe written).run heeds leaves
    obtain ⟨s, whole, inside, holds⟩ := safe.file
    rw [holds]
    exact opened_in path whole inside
  · intro steps next calls shut together alone
    have same : together.memory next.who = alone.memory next.who := memory_run_alone shut rfl
    exact ⟨(own_step calls same).1, (own_step calls same).2.2⟩

end Steps

namespace Sample

inductive Party where
  | controller
  | client
  deriving DecidableEq

def binding (name : String) (version : Version) : ApiBinding :=
  ⟨⟨name, "", none, version⟩, ⟨"root:providers", name⟩, [], .pending⟩

def opens (who : Party) : Step Party := ⟨who, .opens⟩

def creates (who : Party) (name : String) : Step Party :=
  ⟨who, .calls "" (.createBinding .root (binding name 0))⟩

end Sample

section

open Sample

/-- The controller opens the file after the client has written, and before it writes itself. -/
theorem written_survives_informed_sample :
    ∃ restored, FileStore.opened "state" (run "state"
        [opens .client, creates .client "certs", opens .controller, creates .controller "dns"]
        (.start (.error .missing))).content = .ok restored ∧
      restored.getBinding .root "certs" = .ok (binding "certs" 1) := by
  have written : (creates .client "certs").written? "state"
      (run "state" [opens .client] (.start (.error .missing))) =
        some (.bound .root (binding "certs" 1)) := by
    decide +kernel
  obtain ⟨survives, -⟩ :=
    written_survives_informed "state" (.error .missing) [opens Party.client]
  refine survives (creates .client "certs") _ [opens .controller, creates .controller "dns"]
    written ⟨fun opening => ?_, fun _ => .inr ⟨rfl, rfl⟩, trivial⟩ (leaves_bound ..)
  cases opening

/-- Both have opened the file before the client writes. The controller then writes the file from
what it has read, and the binding of the client, which was acknowledged, is gone. -/
theorem stale_copy_overwrites :
    let opened := run "state" [opens .controller, opens .client] (.start (.error .missing))
    let written := (creates .client "certs").run "state" opened
    (creates .client "certs").written? "state" opened =
        some (.bound .root (binding "certs" 1)) ∧
      (creates .controller "dns").written? "state" written =
        some (.bound .root (binding "dns" 1)) ∧
      ∃ restored, FileStore.opened "state"
          ((creates .controller "dns").run "state" written).content = .ok restored ∧
        restored.getBinding .root "certs" = .error (.notFound "APIBinding" "root/certs") := by
  refine ⟨by decide +kernel, by decide +kernel, ?_⟩
  let own := ((Memory.ofSnapshot .empty).createBinding "" .root (binding "dns" 0)).2
  have holds : ((creates .controller "dns").run "state" ((creates .client "certs").run "state"
      (run "state" [opens .controller, opens .client] (.start (.error .missing))))).content =
        .ok (.document (encode own.snapshot)) := by
    rfl
  rw [holds]
  exact ⟨_, FileStore.opened_document "state" own.snapshot, by decide +kernel⟩

end

end ApiCatalog.SharedFile
