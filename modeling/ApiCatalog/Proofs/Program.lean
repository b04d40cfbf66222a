import ApiCatalog.Program

/-!
# What programs may ask and end with

How a program runs on a state, from its first question (`run_ask_apply`) or its first part
(`run_bind_apply`); the record of a run (`ends_transcript`), which can be read without its
surroundings; and predicates on programs by their structure, each with its lemma about sequences:
which questions may come up, and, if the answers are among the allowed ones, what the result
satisfies and how many questions are asked.
-/
namespace ApiCatalog

theorem stateM_bind_apply {σ α β : Type} (x : StateM σ α) (f : α → StateM σ β) (s : σ) :
    (x >>= f) s = f (x s).1 (x s).2 := rfl

namespace Program

variable {Q : Type} {Answer : Q → Type} {α β : Type}

/-- Every question that may come up satisfies the predicate. -/
def Asks (P : Q → Prop) : Program Answer α → Prop
  | .done _ => True
  | .ask q next => P q ∧ ∀ answer, (next answer).Asks P

theorem Asks.bind {P : Q → Prop} {p : Program Answer α} {f : α → Program Answer β}
    (first : p.Asks P) (rest : ∀ a, (f a).Asks P) : (p >>= f).Asks P := by
  induction p with
  | done a => exact rest a
  | ask q next ih => exact ⟨first.1, fun answer => ih answer (first.2 answer)⟩

section Apply

variable {σ : Type} (answer : (q : Q) → StateM σ (Answer q)) (w : σ)

/-- The first question of a run, and then the rest. -/
theorem run_ask_apply (q : Q) (next : Answer q → Program Answer α) :
    (Program.ask q next).run answer w =
      (next (answer q w).1).run answer (answer q w).2 := rfl

theorem run_bind_apply (p : Program Answer α) (f : α → Program Answer β) :
    (p >>= f).run answer w = (f (p.run answer w).1).run answer (p.run answer w).2 := by
  rw [run_bind]
  rfl

end Apply

section Transcripts

/-- Questions and their answers, in the order in which they came up. -/
abbrev Transcript (Answer : Q → Type) := List ((q : Q) × Answer q)

/-- The record of a run. -/
def transcript {σ : Type} (answer : (q : Q) → StateM σ (Answer q)) :
    Program Answer α → σ → Transcript Answer
  | .done _, _ => []
  | .ask q next, w =>
    ⟨q, (answer q w).1⟩ :: (next (answer q w).1).transcript answer (answer q w).2

/-- With these answers the program asks these questions and ends with this result. -/
def Ends : Program Answer α → Transcript Answer → α → Prop
  | .done a, log, b => log = [] ∧ a = b
  | .ask q next, log, b => ∃ answer rest, log = ⟨q, answer⟩ :: rest ∧ (next answer).Ends rest b

theorem ends_transcript {σ : Type} (answer : (q : Q) → StateM σ (Answer q))
    (p : Program Answer α) (w : σ) : p.Ends (p.transcript answer w) (p.run answer w).1 := by
  induction p generalizing w with
  | done a => exact ⟨rfl, rfl⟩
  | ask q next ih => exact ⟨_, _, rfl, ih _ _⟩

/-- From one state to another one these questions come up and are answered like this. -/
def Follows {σ : Type} (answer : (q : Q) → StateM σ (Answer q)) : σ → Transcript Answer → σ → Prop
  | w, [], w' => w = w'
  | w, x :: rest, w' => x.2 = (answer x.1 w).1 ∧ Follows answer (answer x.1 w).2 rest w'

theorem follows_transcript {σ : Type} (answer : (q : Q) → StateM σ (Answer q))
    (p : Program Answer α) (w : σ) :
    Follows answer w (p.transcript answer w) (p.run answer w).2 := by
  induction p generalizing w with
  | done a => rfl
  | ask q next ih => exact ⟨rfl, ih _ _⟩

/-- Every answer was given in some state. -/
theorem Follows.answered {σ : Type} {answer : (q : Q) → StateM σ (Answer q)} {w w' : σ}
    {log : Transcript Answer} (follows : Follows answer w log w') :
    ∀ x ∈ log, ∃ v, x.2 = (answer x.1 v).1 := by
  induction log generalizing w with
  | nil => exact nofun
  | cons x rest ih => exact List.forall_mem_cons.2 ⟨⟨w, follows.1⟩, ih follows.2⟩

theorem Follows.of_append {σ : Type} {answer : (q : Q) → StateM σ (Answer q)} {w w'' : σ}
    {first rest : Transcript Answer} (follows : Follows answer w (first ++ rest) w'') :
    ∃ w', Follows answer w first w' ∧ Follows answer w' rest w'' := by
  induction first generalizing w with
  | nil => exact ⟨w, rfl, follows⟩
  | cons x first ih =>
    obtain ⟨w', before, after⟩ := ih follows.2
    exact ⟨w', ⟨follows.1, before⟩, after⟩

/-- The parts of a sequence have their parts of its record. -/
theorem Ends.of_bind {p : Program Answer α} {f : α → Program Answer β} {log : Transcript Answer}
    {b : β} (ends : (p >>= f).Ends log b) :
    ∃ a first rest, log = first ++ rest ∧ p.Ends first a ∧ (f a).Ends rest b := by
  induction p generalizing log with
  | done a => exact ⟨a, [], log, rfl, ⟨rfl, rfl⟩, ends⟩
  | ask q next ih =>
    obtain ⟨answer, later, rfl, ends⟩ := ends
    obtain ⟨a, first, rest, rfl, before, after⟩ := ih answer ends
    exact ⟨a, ⟨q, answer⟩ :: first, rest, rfl, ⟨answer, first, rfl, before⟩, after⟩

end Transcripts

section Ensures

variable {allowed : (q : Q) → Answer q → Prop}

/-- Whatever allowed answers the program gets, its result satisfies the predicate. -/
def Ensures (allowed : (q : Q) → Answer q → Prop) (P : α → Prop) : Program Answer α → Prop
  | .done a => P a
  | .ask q next => ∀ answer, allowed q answer → (next answer).Ensures allowed P

theorem ensures_true (p : Program Answer α) : p.Ensures allowed fun _ => True := by
  induction p with
  | done a => exact trivial
  | ask q next ih => exact fun answer _ => ih answer

theorem Ensures.bind {P : α → Prop} {R : β → Prop} {p : Program Answer α}
    {f : α → Program Answer β} (first : p.Ensures allowed P)
    (rest : ∀ a, P a → (f a).Ensures allowed R) : (p >>= f).Ensures allowed R := by
  induction p with
  | done a => exact rest a first
  | ask q next ih => exact fun answer fits => ih answer (first answer fits)

/-- The results of all runs satisfy what is ensured. -/
theorem Ensures.run {σ : Type} {P : α → Prop} {p : Program Answer α}
    (ensures : p.Ensures (fun _ _ => True) P) (answer : (q : Q) → StateM σ (Answer q)) (w : σ) :
    P (p.run answer w).1 := by
  induction p generalizing w with
  | done a => exact ensures
  | ask q next ih => exact ih _ (ensures _ trivial) _

end Ensures

section Takes

variable {allowed : (q : Q) → Answer q → Prop}

/-- Whatever allowed answers the program gets, it asks at most so many questions, and its result
satisfies the predicate. -/
def Takes (allowed : (q : Q) → Answer q → Prop) (P : α → Prop) : Program Answer α → Nat → Prop
  | .done a, _ => P a
  | .ask q next, most => ∃ fewer, most = fewer + 1 ∧
      ∀ answer, allowed q answer → (next answer).Takes allowed P fewer

theorem Takes.mono {P : α → Prop} {p : Program Answer α} {most more : Nat}
    (takes : p.Takes allowed P most) (le : most ≤ more) : p.Takes allowed P more := by
  induction p generalizing most more with
  | done a => exact takes
  | ask q next ih =>
    obtain ⟨fewer, rfl, answered⟩ := takes
    exact ⟨more - 1, by omega, fun answer fits => ih answer (answered answer fits) (by omega)⟩

theorem Takes.weaken {P R : α → Prop} {p : Program Answer α} {most : Nat}
    (takes : p.Takes allowed P most) (weaker : ∀ a, P a → R a) : p.Takes allowed R most := by
  induction p generalizing most with
  | done a => exact weaker a takes
  | ask q next ih =>
    obtain ⟨fewer, rfl, answered⟩ := takes
    exact ⟨fewer, rfl, fun answer fits => ih answer (answered answer fits)⟩

theorem Takes.bind {P : α → Prop} {R : β → Prop} {p : Program Answer α}
    {f : α → Program Answer β} {first rest : Nat} (before : p.Takes allowed P first)
    (after : ∀ a, P a → (f a).Takes allowed R rest) :
    (p >>= f).Takes allowed R (first + rest) := by
  induction p generalizing first with
  | done a => exact (after a before).mono (Nat.le_add_left rest first)
  | ask q next ih =>
    obtain ⟨fewer, rfl, answered⟩ := before
    exact ⟨fewer + rest, by omega, fun answer fits => ih answer (answered answer fits)⟩

theorem Takes.bind_pure {P : α → Prop} {R : β → Prop} {p : Program Answer α} {f : α → β}
    {most : Nat} (takes : p.Takes allowed P most) (after : ∀ a, P a → R (f a)) :
    (p >>= fun a => pure (f a)).Takes allowed R most := by
  induction p generalizing most with
  | done a => exact after a takes
  | ask q next ih =>
    obtain ⟨fewer, rfl, answered⟩ := takes
    exact ⟨fewer, rfl, fun answer fits => ih answer (answered answer fits)⟩

end Takes

end Program
end ApiCatalog
