import ApiCatalog.Client.Action
import ApiCatalog.Proofs.Store.Agreement

/-!
# Clients and stores that fail

A client works with a store in memory or with one that has a state file. Before each of its actions
others may move bindings to other phases. Calls are refused as it happens, and the state file may
not be writable; time, output and the ends of generated names are as the surroundings have them.
Main statements: a binding is created or the objects stay as they are (`serve_createBinding`), and
what neither creates a binding nor writes a status leaves the store as others leave it
(`serve_quiet`).
-/
namespace ApiCatalog

/-- Where a store keeps what it holds. -/
inductive Backing (δ : Type) where
  | memory
  | file (path : String) (save : Content → StateM δ (Except FileFault Unit))

namespace Backing

variable {δ : Type}

def answer (suffix : String) : Backing δ → (call : Call) → StateT Memory (StateM δ) call.Answer
  | memory, call => Memory.answer (pure suffix) call
  | file path save, call => FileStore.answer path save (pure suffix) call

end Backing

namespace Memory

/-- A binding is refused because it has no name, or because its name is taken. -/
theorem createBinding_refused {s s' : Memory} {suffix : String} {partition : Partition}
    {binding : ApiBinding} {e : StoreError}
    (refused : s.createBinding suffix partition binding = (.error e, s')) :
    (binding.metadata.name = "" ∧ binding.metadata.generateName = "") ∨
      ∃ kind key, e = .alreadyExists kind key := by
  unfold createBinding at refused
  extract_lets metadata name key at refused
  split at refused
  next unnamed => exact .inl unnamed
  · split at refused
    · cases refused
      exact .inr ⟨_, _, rfl⟩
    · cases refused

/-- A created binding is the given one, with a version and with a name if it had none. -/
theorem createBinding_given {s s' : Memory} {suffix : String} {partition : Partition}
    {binding created : ApiBinding}
    (done : s.createBinding suffix partition binding = (.ok created, s')) :
    ∃ version, created = { binding with metadata := { binding.metadata with
      name := if binding.metadata.name = "" then binding.metadata.generateName ++ suffix
        else binding.metadata.name
      version } } := by
  unfold createBinding at done
  extract_lets metadata name key at done
  split at done
  · cases done
  · split at done
    · cases done
    · exact ⟨_, (Except.ok.inj (Prod.mk.inj done).1).symm⟩

end Memory

namespace Client

/-- What others do before an action of a client, and what the surroundings answer to it. A call that
is refused does not get to the store. -/
structure Circumstance where
  moves : List (Partition × String × BindingPhase)
  suffix : String
  output : Except String Unit
  time : Duration
  refusal : Option StoreError

def Circumstance.move (i : Circumstance) (s : Memory) : Memory :=
  i.moves.foldl (fun s move => (s.setPhase move.1 move.2.1 move.2.2).2) s

/-- A store of some kind, and what happens around each action. -/
structure Surroundings (δ : Type) where
  backing : Backing δ
  around : Nat → Circumstance

/-- A store and what is behind it, and the number of actions done so far. -/
structure Premises (δ : Type) where
  store : Memory
  device : δ
  actions : Nat

variable {δ : Type}

/-- Neither creates a binding nor writes a status. -/
def Quiet : Action → Prop
  | .call (.createBinding ..) => False
  | .call (.updateEntryStatus ..) => False
  | _ => True

def Circumstance.answer (i : Circumstance) (backing : Backing δ) :
    (action : Action) → StateT Memory (StateM δ) action.Answer
  | .call c =>
    match i.refusal with
    | some e => pure (c.failed e)
    | none => backing.answer i.suffix c
  | .write _ => pure i.output
  | .flush => pure i.output
  | .clock => pure i.time
  | .sleep _ => pure ()

/-- What a backing makes of a creation: the store answers, or the state file is not written. -/
theorem answer_createBinding (backing : Backing δ) (suffix : String) (partition : Partition)
    (wanted : ApiBinding) (s : Memory) (d : δ) :
    let ending := if Memory.needsName wanted then suffix else ""
    let answered := backing.answer suffix (.createBinding partition wanted) s d
    answered.1 = s.createBinding ending partition wanted ∨
      ∃ created s' path reason, s.createBinding ending partition wanted = (.ok created, s') ∧
        answered.1 =
          (.error (.io path reason), s'.undoBinding partition created.metadata.name) := by
  intro ending answered
  cases backing with
  | memory =>
    refine .inl ?_
    simp only [answered, ending, Backing.answer, Memory.answer]
    split <;> rfl
  | file path save =>
    have same : answered = FileStore.createBinding path save ending partition wanted s d := by
      simp only [answered, ending, Backing.answer, FileStore.answer]
      split <;> rfl
    rw [same, FileStore.createBinding_apply]
    rcases done : s.createBinding ending partition wanted with ⟨e | created, s'⟩
    · exact .inl rfl
    · dsimp only
      split
      · exact .inl rfl
      · exact .inr ⟨created, s', _, _, rfl, rfl⟩

namespace Surroundings

variable (z : Surroundings δ) (w : Premises δ)

def serve (action : Action) : StateM (Premises δ) action.Answer := fun w =>
  let i := z.around w.actions
  let after := i.answer z.backing action (i.move w.store) w.device
  (after.1.1, ⟨after.1.2, after.2, w.actions + 1⟩)

/-- The store when others have moved what they move before the next action. -/
def moved : Memory := (z.around w.actions).move w.store

/-- Why the creation of a binding fails, which is the action of this number: the call is refused,
the binding has no name, the name is taken, or the state file is not written. -/
inductive Fails (n : Nat) (wanted : ApiBinding) : StoreError → Prop where
  | refused {e : StoreError} (refusal : (z.around n).refusal = some e) : Fails n wanted e
  | unnamed {e : StoreError}
      (none : wanted.metadata.name = "" ∧ wanted.metadata.generateName = "") : Fails n wanted e
  | taken (kind key : String) : Fails n wanted (.alreadyExists kind key)
  | unwritten (path reason : String) : Fails n wanted (.io path reason)

/-- A binding is created, or the objects stay as they are. -/
theorem serve_createBinding (partition : Partition) (wanted : ApiBinding) :
    let served := z.serve (.call (.createBinding partition wanted)) w
    (∃ made suffix, served.1 = .ok made ∧
      (z.moved w).createBinding suffix partition wanted = (.ok made, served.2.store)) ∨
      ∃ e, served.1 = .error e ∧ served.2.store.SameObjects (z.moved w) ∧
        z.Fails w.actions wanted e := by
  intro served
  cases refusal : (z.around w.actions).refusal with
  | some e =>
    have same : served = (.error e, ⟨z.moved w, w.device, w.actions + 1⟩) := by
      simp only [served, serve, Circumstance.answer, refusal]
      rfl
    exact .inr ⟨e, by rw [same], by rw [same]; exact .refl _, .refused refusal⟩
  | none =>
    have same : (served.1, served.2.store) = (z.backing.answer (z.around w.actions).suffix
        (.createBinding partition wanted) (z.moved w) w.device).1 := by
      simp only [served, serve, Circumstance.answer, refusal]
      rfl
    rcases answer_createBinding z.backing (z.around w.actions).suffix partition wanted (z.moved w)
      w.device with answered | ⟨created, s', path, reason, done, answered⟩
    · rw [← same] at answered
      rcases made : (z.moved w).createBinding _ partition wanted with ⟨e | created, s'⟩
      · rw [made] at answered
        obtain ⟨reply, rfl⟩ := Prod.mk.inj answered
        refine .inr ⟨e, reply, Memory.sameObjects_of_not_created made, ?_⟩
        rcases Memory.createBinding_refused made with unnamed | ⟨kind, key, rfl⟩
        · exact .unnamed unnamed
        · exact .taken kind key
      · rw [made] at answered
        obtain ⟨reply, rfl⟩ := Prod.mk.inj answered
        exact .inl ⟨created, _, reply, made⟩
    · rw [← same] at answered
      obtain ⟨reply, store⟩ := Prod.mk.inj answered
      exact .inr ⟨_, reply, store ▸ Memory.sameObjects_undoBinding done, .unwritten path reason⟩

/-- Calls that read, output and time leave the store as others leave it, and the state file as it
is. -/
theorem serve_quiet {action : Action} (quiet : Quiet action) :
    (z.serve action w).2 = ⟨z.moved w, w.device, w.actions + 1⟩ := by
  obtain ⟨backing, around⟩ := z
  cases action with
  | call c =>
    unfold serve Circumstance.answer
    dsimp only
    cases (around w.actions).refusal with
    | some e => rfl
    | none => cases c <;> first | exact quiet.elim | cases backing <;> rfl
  | write pieces => rfl
  | flush => rfl
  | clock => rfl
  | sleep length => rfl

theorem store_serve {action : Action} (quiet : Quiet action) :
    (z.serve action w).2.store = z.moved w := by
  rw [z.serve_quiet w quiet]

/-- What a call that reads gives, by the number of the action, where the store holds this. -/
def replied (s : Memory) (n : Nat) (c : Call) : c.Answer :=
  match (z.around n).refusal with
  | some e => c.failed e
  | none => ((Memory.answer (pure "") c).run s : Id _).1

theorem serve_eq_replied {c : Call} (quiet : Quiet (.call c)) :
    (z.serve (.call c) w).1 = z.replied (z.moved w) w.actions c := by
  obtain ⟨backing, around⟩ := z
  unfold serve Circumstance.answer replied
  dsimp only
  cases (around w.actions).refusal with
  | some e => rfl
  | none => cases c <;> first | exact quiet.elim | cases backing <;> rfl

/-- A call that reads is refused, or is answered by what the store holds then. -/
theorem serve_reading {c : Call} (quiet : Quiet (.call c)) :
    (∃ e, (z.around w.actions).refusal = some e ∧ (z.serve (.call c) w).1 = c.failed e) ∨
      (z.serve (.call c) w).1 = ((Memory.answer (pure "") c).run (z.moved w) : Id _).1 := by
  rw [z.serve_eq_replied w quiet, replied]
  cases (z.around w.actions).refusal with
  | some e => exact .inl ⟨e, rfl, rfl⟩
  | none => exact .inr rfl

end Surroundings
end Client
end ApiCatalog
