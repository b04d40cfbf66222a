/-!
# Programs that ask questions

A `Program` is the tree of what a component asks of its surroundings and how it goes on with each
answer. The same tree runs against any answering behaviour: a store in memory, a store with a file
behind it, one that fails, one that stops half-way. Main statements: running a program that ends
asks nothing, and running a sequence runs the first part and then the rest (`run_bind`).
-/
namespace ApiCatalog

/-- A question of type `Q` at each inner node, one branch for each possible answer. -/
inductive Program {Q : Type} (Answer : Q → Type) (α : Type) where
  | done (result : α)
  | ask (question : Q) (next : Answer question → Program Answer α)

namespace Program

variable {Q : Type} {Answer : Q → Type} {α β : Type}

protected def bind : Program Answer α → (α → Program Answer β) → Program Answer β
  | .done a, f => f a
  | .ask q next, f => .ask q fun answer => (next answer).bind f

instance : Monad (Program Answer) where
  pure := .done
  bind := .bind

/-- The program that asks one question and ends with its answer. -/
def query (q : Q) : Program Answer (Answer q) := .ask q .done

/-- Answers every question with `answer`, in the order in which they come up. -/
def run {m : Type → Type} [Monad m] (answer : (q : Q) → m (Answer q)) : Program Answer α → m α
  | .done a => pure a
  | .ask q next => do
    let reply ← answer q
    (next reply).run answer

@[simp] theorem pure_eq_done (a : α) : (pure a : Program Answer α) = .done a := rfl

@[simp] theorem done_bind (a : α) (f : α → Program Answer β) :
    (Program.done a >>= f) = f a := rfl

@[simp] theorem ask_bind (q : Q) (next : Answer q → Program Answer α) (f : α → Program Answer β) :
    (Program.ask q next >>= f) = .ask q fun answer => next answer >>= f := rfl

theorem bind_assoc {γ : Type} (p : Program Answer α) (f : α → Program Answer β)
    (g : β → Program Answer γ) : p >>= f >>= g = p >>= fun a => f a >>= g := by
  induction p with
  | done a => rfl
  | ask q next ih =>
    simp only [ask_bind]
    congr
    funext answer
    exact ih answer

section Run

variable {m : Type → Type} [Monad m] (answer : (q : Q) → m (Answer q))

@[simp] theorem run_done (a : α) : (Program.done a).run answer = (pure a : m α) := rfl

@[simp] theorem run_ask (q : Q) (next : Answer q → Program Answer α) :
    (Program.ask q next).run answer = answer q >>= fun reply => (next reply).run answer := rfl

theorem run_bind [LawfulMonad m] (p : Program Answer α) (f : α → Program Answer β) :
    (p >>= f).run answer = p.run answer >>= fun a => (f a).run answer := by
  induction p with
  | done a => simp
  | ask q next ih => simp [ih]

end Run

end Program
end ApiCatalog
