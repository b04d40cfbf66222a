import ApiCatalog.Proofs.Program
import ApiCatalog.Reconcile.Pass

/-!
# Steps under a guard

The signal of a pass may come up at any moment. The guard of a step looks at it before the step is
started and whenever the step has waited; a step that is served is served in one go. Main
statements: a signal that no guard comes to see has no effect (`Service.pass_of_late`), and one that
a guard sees in time ends the pass before its last step is served (`Service.pass_of_inTime`).
-/
namespace ApiCatalog
namespace Pass

/-- When the signal of a pass comes up. The guarded steps of the pass are numbered from 0. -/
inductive Onset where
  /-- There is no signal, or nobody raises it. -/
  | never
  /-- The handle of the signal is dropped before the step, and so nobody can raise it any more. -/
  | dropped (step : Nat)
  | before (step : Nat)
  /-- The step is started and still waits. -/
  | waiting (step : Nat)
  /-- The step is being served, and then ends without waiting again. -/
  | serving (step : Nat)
  deriving DecidableEq

namespace Onset

/-- The signal is up when the guard of a step looks at it, after so many steps before. -/
def isUp (started : Nat) : Onset → Bool
  | never | dropped _ => false
  | before step => step ≤ started
  | waiting step | serving step => step < started

/-- The signal comes up before the last one of so many steps has ended. -/
def PrecedesEnd (steps : Nat) : Onset → Prop
  | never | dropped _ => False
  | before step | waiting step | serving step => step < steps

/-- As before, and a guard still comes to see it: this is not while the last step is served. -/
def InTime (steps : Nat) : Onset → Prop
  | never | dropped _ => False
  | before step | waiting step => step < steps
  | serving step => step + 1 < steps

/-- The number of steps that are started all the same. -/
def started : Onset → Nat
  | never | dropped _ => 0
  | before step => step
  | waiting step | serving step => step + 1

section Order

variable {onset : Onset} {n m : Nat}

theorem not_inTime_zero (onset : Onset) : ¬onset.InTime 0 := by
  cases onset <;> simp [InTime]

theorem InTime.mono (inTime : onset.InTime n) (le : n ≤ m) : onset.InTime m := by
  cases onset <;> simp only [InTime] at inTime ⊢ <;> omega

/-- A signal that is too late for a step is seen neither before it nor while it waits. -/
theorem unseen_of_late (late : ¬onset.InTime (n + 1)) :
    onset.isUp n = false ∧ onset ≠ .waiting n := by
  cases onset <;> simp only [InTime, isUp, decide_eq_false_iff_not, ne_eq, reduceCtorEq,
    waiting.injEq, not_false_eq_true, and_true] at late ⊢ <;> omega

/-- The next step does not change that the signal is not in time. -/
theorem late_succ (late : ¬onset.InTime n) (down : ¬onset.isUp n = true)
    (served : onset ≠ .waiting n) : ¬onset.InTime (n + 1) := by
  cases onset <;> simp only [InTime, isUp, decide_eq_true_eq, ne_eq, waiting.injEq] at * <;> omega

/-- A guard sees the signal before the first step that is not started. -/
theorem started_le_of_isUp (late : ¬onset.InTime n) (up : onset.isUp n = true) :
    onset.started ≤ n := by
  cases onset <;> simp only [InTime, isUp, started, decide_eq_true_eq] at * <;> omega

theorem le_started (late : ¬onset.InTime n) (inTime : onset.InTime m) : n ≤ onset.started := by
  cases onset <;> simp only [InTime, started] at * <;> omega

end Order

end Onset

/-- What does the steps of passes. -/
structure Service (σ : Type) where
  /-- Does a step, and what others do meanwhile. -/
  serve : (step : Step) → StateM σ step.Answer
  /-- What is left of a step that is given up while it waits. -/
  abandon : Step → σ → σ

/-- A pass at work: the state of its surroundings, and the steps that it has started. -/
structure Underway (σ : Type) where
  state : σ
  started : List Step

namespace Service

variable {σ : Type} (service : Service σ)

/-- A step under its guard. -/
def attempt (onset : Onset) (step : Step) : StateM (Underway σ) (Option step.Answer) := fun w =>
  let started := w.started ++ [step]
  if onset = .waiting w.started.length then (none, ⟨service.abandon step w.state, started⟩)
  else
    let reply := service.serve step w.state
    (some reply.1, ⟨reply.2, started⟩)

def guarded {α : Type} (onset : Onset) (program : Program Step.Answer α) :
    StateM (Underway σ) (Option α) :=
  runGuarded (fun w => (onset.isUp w.started.length, w)) (service.attempt onset) program

/-- A pass whose signal comes up at some time, with its result, the state after it and the steps
that were started. -/
def guardedPass {α : Type} (onset : Onset) (program : Program Step.Answer (Except PassError α))
    (s : σ) : Except PassError α × Underway σ :=
  let ended := service.guarded onset program ⟨s, []⟩
  (settle ended.1, ended.2)

/-- The steps of a program that runs to its end. -/
def stepsOf {α : Type} : Program Step.Answer α → σ → List Step
  | .done _, _ => []
  | .ask step next, s =>
    step :: stepsOf (next (service.serve step s).1) (service.serve step s).2

/-- Only the last step of a program may change the state. -/
def WritesLast {α : Type} : Program Step.Answer α → σ → Prop
  | .done _, _ => True
  | .ask step next, s =>
    (∃ a, next (service.serve step s).1 = .done a) ∨
      (service.serve step s).2 = s ∧ WritesLast (next (service.serve step s).1) s

section Guards

variable {α : Type} {onset : Onset}

section Ask

variable (step : Step) (next : step.Answer → Program Step.Answer α)

theorem stepsOf_ask (s : σ) : service.stepsOf (.ask step next) s =
    step :: service.stepsOf (next (service.serve step s).1) (service.serve step s).2 := rfl

theorem writesLast_ask (s : σ) : service.WritesLast (.ask step next) s ↔
    (∃ a, next (service.serve step s).1 = .done a) ∨
      (service.serve step s).2 = s ∧
        service.WritesLast (next (service.serve step s).1) s := Iff.rfl

theorem guarded_ask (w : Underway σ) : service.guarded onset (.ask step next) w =
    if onset.isUp w.started.length then (none, w)
    else if onset = .waiting w.started.length then
      (none, ⟨service.abandon step w.state, w.started ++ [step]⟩)
    else service.guarded onset (next (service.serve step w.state).1)
      ⟨(service.serve step w.state).2, w.started ++ [step]⟩ := by
  rw [guarded, runGuarded, stateM_bind_apply]
  dsimp only
  split
  · rfl
  · rw [stateM_bind_apply, attempt]
    split <;> rfl

end Ask

/-- A signal that no guard comes to see has no effect. -/
theorem guarded_of_late (program : Program Step.Answer α) (w : Underway σ)
    (late : ¬onset.InTime (w.started.length + (service.stepsOf program w.state).length)) :
    service.guarded onset program w = (some (program.run service.serve w.state).1,
      ⟨(program.run service.serve w.state).2,
        w.started ++ service.stepsOf program w.state⟩) := by
  induction program generalizing w with
  | done a =>
    rw [stepsOf, List.append_nil]
    rfl
  | ask step next ih =>
    rw [stepsOf_ask, List.length_cons] at late
    obtain ⟨down, served⟩ := Onset.unseen_of_late fun inTime =>
      late (inTime.mono (Nat.add_le_add_left (Nat.le_add_left 1 _) _))
    rw [guarded_ask, down, if_neg Bool.false_ne_true, if_neg served, ih, Program.run_ask_apply,
      stepsOf_ask, List.append_assoc]
    · rfl
    · rwa [List.length_append, List.length_singleton, Nat.add_right_comm]

/-- If a guard comes to see the signal, the program is given up before its last step is served.
Where nothing is left of a step that is given up, and only the last one changes the state, the state
is as it was. -/
theorem guarded_of_inTime (program : Program Step.Answer α) (w : Underway σ)
    (unseen : ¬onset.InTime w.started.length)
    (inTime : onset.InTime (w.started.length + (service.stepsOf program w.state).length)) :
    ∃ s, service.guarded onset program w = (none, ⟨s, w.started ++
        (service.stepsOf program w.state).take (onset.started - w.started.length)⟩) ∧
      ((∀ step s, service.abandon step s = s) → service.WritesLast program w.state →
        s = w.state) := by
  induction program generalizing w with
  | done a => exact absurd inTime unseen
  | ask step next ih =>
    rw [stepsOf_ask, guarded_ask]
    rw [stepsOf_ask, List.length_cons] at inTime
    by_cases up : onset.isUp w.started.length = true
    · have none_left := Nat.sub_eq_zero_of_le (Onset.started_le_of_isUp unseen up)
      rw [if_pos up, none_left, List.take_zero, List.append_nil]
      exact ⟨w.state, rfl, fun _ _ => rfl⟩
    rw [if_neg up]
    by_cases waits : onset = .waiting w.started.length
    · have one_left : onset.started - w.started.length = 1 := by
        rw [waits, Onset.started]
        omega
      rw [if_pos waits, one_left]
      exact ⟨_, rfl, fun clean _ => clean step w.state⟩
    rw [if_neg waits]
    have unseen' := Onset.late_succ unseen up waits
    have more := Onset.le_started unseen' inTime
    have length : (w.started ++ [step]).length = w.started.length + 1 := List.length_append
    have rest := ih (service.serve step w.state).1
      ⟨(service.serve step w.state).2, w.started ++ [step]⟩
    dsimp only at rest
    rw [length, Nat.add_right_comm] at rest
    obtain ⟨s, given, kept⟩ := rest unseen' inTime
    have begun : onset.started - w.started.length =
        onset.started - (w.started.length + 1) + 1 := by omega
    rw [begun, List.take_succ_cons]
    refine ⟨s, by rw [given, List.append_assoc]; rfl, fun clean last => ?_⟩
    rcases last with ⟨a, ended⟩ | ⟨same, last⟩
    · -- This would be the last step, and the signal came up before it was served.
      rw [ended] at inTime
      exact absurd inTime unseen'
    · rw [same] at kept
      exact kept clean last

end Guards

section Passes

variable {α : Type} {onset : Onset} {program : Program Step.Answer (Except PassError α)} {s : σ}

theorem pass_of_late (late : ¬onset.InTime (service.stepsOf program s).length) :
    service.guardedPass onset program s = ((program.run service.serve s).1,
      ⟨(program.run service.serve s).2, service.stepsOf program s⟩) := by
  have whole := service.guarded_of_late program ⟨s, []⟩
    (by rwa [List.length_nil, Nat.zero_add])
  rw [guardedPass, whole]
  rfl

theorem pass_of_inTime (inTime : onset.InTime (service.stepsOf program s).length) :
    ∃ s', service.guardedPass onset program s =
        (.error .cancelled, ⟨s', (service.stepsOf program s).take onset.started⟩) ∧
      ((∀ step s, service.abandon step s = s) → service.WritesLast program s → s' = s) := by
  obtain ⟨s', given, kept⟩ := service.guarded_of_inTime program ⟨s, []⟩ onset.not_inTime_zero
    (by rwa [List.length_nil, Nat.zero_add])
  refine ⟨s', ?_, kept⟩
  rw [guardedPass, given]
  rfl

end Passes
end Service
end Pass
end ApiCatalog
