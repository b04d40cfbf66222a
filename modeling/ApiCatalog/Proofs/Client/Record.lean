import ApiCatalog.Client.Action
import ApiCatalog.Proofs.Program

/-!
# The record of a client

What a client has done, with the answers it got, can be read without the surroundings that gave the
answers. Main statement: a client that goes on after another one has the end of the record, and one
that halts has all of it (`Ends.of_bind`).
-/
namespace ApiCatalog
namespace Client

/-- An action and the answer to it. -/
abbrev Deed := (action : Action) × action.Answer

variable {α β : Type}

/-- With these answers the client does these actions and ends like this. -/
def Ends (c : Client α) (log : List Deed) (result : Except Halt α) : Prop :=
  Program.Ends c.run log result

section Record

variable {c : Client α} {f : α → Client β} {log : List Deed}

theorem Ends.of_pure {a : α} {result : Except Halt α} (ends : Ends (pure a) log result) :
    log = [] ∧ result = .ok a :=
  ⟨ends.1, ends.2.symm⟩

theorem Ends.of_fail {e : ClientError} {result : Except Halt α} (ends : Ends (fail e) log result) :
    log = [] ∧ result = .error (.failed e) :=
  ⟨ends.1, ends.2.symm⟩

theorem Ends.of_act {action : Action} {result : Except Halt action.Answer}
    (ends : Ends (act action) log result) :
    ∃ reply, log = [⟨action, reply⟩] ∧ result = .ok reply := by
  obtain ⟨reply, rest, rfl, rfl, same⟩ := ends
  exact ⟨reply, rfl, same.symm⟩

/-- The second client begins where the first one has not halted. -/
theorem Ends.of_bind {result : Except Halt β} (ends : Ends (c >>= f) log result) :
    (∃ h, Ends c log (.error h) ∧ result = .error h) ∨
      ∃ a first rest, log = first ++ rest ∧ Ends c first (.ok a) ∧ Ends (f a) rest result := by
  unfold Ends at ends
  rw [ExceptT.run_bind] at ends
  obtain ⟨outcome, first, rest, rfl, before, after⟩ := Program.Ends.of_bind ends
  cases outcome with
  | ok a => exact .inr ⟨a, first, rest, rfl, before, after⟩
  | error h =>
    obtain ⟨rfl, same⟩ := after
    exact .inl ⟨h, by rwa [List.append_nil], same.symm⟩

theorem Ends.of_act_bind {action : Action} {f : action.Answer → Client β} {result : Except Halt β}
    (ends : Ends (act action >>= f) log result) :
    ∃ reply rest, log = ⟨action, reply⟩ :: rest ∧ Ends (f reply) rest result := by
  obtain ⟨h, halted, -⟩ | ⟨a, first, rest, rfl, did, after⟩ := ends.of_bind
  · obtain ⟨reply, -, same⟩ := halted.of_act
    cases same
  · obtain ⟨reply, rfl, same⟩ := did.of_act
    cases same
    exact ⟨_, rest, rfl, after⟩

/-- A line is the only thing on the record of its printing. -/
theorem Ends.of_print {pieces : List String} {result : Except Halt Unit}
    (ends : Ends (print pieces) log result) :
    (log = [⟨.write (pieces ++ ["\n"]), .ok ()⟩] ∧ result = .ok ()) ∨
      ∃ reason, log = [⟨.write (pieces ++ ["\n"]), .error reason⟩] ∧
        result = .error (.failed (.output reason)) := by
  obtain ⟨reply, rest, rfl, after⟩ := ends.of_act_bind
  cases reply with
  | ok done =>
    obtain ⟨rfl, rfl⟩ := after.of_pure
    exact .inl ⟨rfl, rfl⟩
  | error reason =>
    obtain ⟨rfl, rfl⟩ := after.of_fail
    exact .inr ⟨reason, rfl, rfl⟩

theorem Ends.of_flush {result : Except Halt Unit} (ends : Ends flush log result) :
    (log = [⟨.flush, .ok ()⟩] ∧ result = .ok ()) ∨
      ∃ reason, log = [⟨.flush, .error reason⟩] ∧ result = .error (.failed (.output reason)) := by
  obtain ⟨reply, rest, rfl, after⟩ := ends.of_act_bind
  cases reply with
  | ok done =>
    obtain ⟨rfl, rfl⟩ := after.of_pure
    exact .inl ⟨rfl, rfl⟩
  | error reason =>
    obtain ⟨rfl, rfl⟩ := after.of_fail
    exact .inr ⟨reason, rfl, rfl⟩

end Record

/-- In all surroundings a client goes on unless it has halted. -/
theorem run_bind {σ : Type} (answer : (action : Action) → StateM σ action.Answer)
    (c : Client α) (f : α → Client β) (w : σ) :
    (c >>= f).run.run answer w = match c.run.run answer w with
      | (.ok a, w) => (f a).run.run answer w
      | (.error h, w) => (.error h, w) := by
  rw [ExceptT.run_bind, Program.run_bind_apply]
  rcases c.run.run answer w with ⟨result, after⟩
  cases result with
  | ok a => rfl
  | error h => rfl

/-- The first action of a client, and then the rest. -/
theorem run_act_bind {σ : Type} (answer : (action : Action) → StateM σ action.Answer)
    (action : Action) (f : action.Answer → Client β) (w : σ) :
    (act action >>= f).run.run answer w =
      (f (answer action w).1).run.run answer (answer action w).2 := by
  rw [run_bind]
  rfl

section Runs

variable {σ : Type} (answer : (action : Action) → StateM σ action.Answer) (c : Client α) (w : σ)

/-- What the client does in these surroundings. -/
def record : List Deed := Program.transcript answer c.run w

/-- How it ends there. -/
def outcome : Except Halt α := (c.run.run answer w).1

/-- What it leaves there. -/
def after : σ := (c.run.run answer w).2

theorem ends_record : Ends c (record answer c w) (outcome answer c w) :=
  Program.ends_transcript answer c.run w

theorem follows_record : Program.Follows answer w (record answer c w) (after answer c w) :=
  Program.follows_transcript answer c.run w

end Runs
end Client
end ApiCatalog
