import Socks5.Failure.Basic

/-!
# Tasks

A task is a piece of work that now and then has to ask its surroundings for something: the next
bytes of a stream, a connection, the opinion of a collaborator. It is a tree of questions: what it
does next depends on the answer, and what the surroundings answer is up to them. `Task.settle`
runs a task against surroundings with a state of their own until it ends or has to wait.
-/

namespace Socks5

/-- What may be asked, and what an answer to each question looks like. -/
structure Interface where
  Ask : Type
  Answer : Ask → Type

/-- A piece of work over an interface that ends with a value or with a failure. -/
inductive Task (I : Interface) (α : Type) where
  | done (value : α)
  | fail (failure : Failure)
  | ask (question : I.Ask) (next : I.Answer question → Task I α)

namespace Task

variable {I J : Interface} {α β σ : Type}

/-- One task after another. -/
def bind : Task I α → (α → Task I β) → Task I β
  | .done a, f => f a
  | .fail e, _ => .fail e
  | .ask q next, f => .ask q fun answer => (next answer).bind f

instance : Monad (Task I) where
  pure := .done
  bind := .bind

/-- A single question. -/
def put (q : I.Ask) : Task I (I.Answer q) := .ask q .done

/-- A task whose failure is a value, so that more can be done about it. -/
def attempt : Task I α → Task I (Except Failure α)
  | .done a => .done (.ok a)
  | .fail e => .done (.error e)
  | .ask q next => .ask q fun answer => (next answer).attempt

/-- What has been settled already, as a task. -/
def ofExcept : Except Failure α → Task I α
  | .ok a => .done a
  | .error e => .fail e

/-- A task with every question settled by a task over another interface. -/
def via (settle : (q : I.Ask) → Task J (I.Answer q)) : Task I α → Task J α
  | .done a => .done a
  | .fail e => .fail e
  | .ask q next => (settle q).bind fun answer => (next answer).via settle

/-- The outcome of a task that has ended. -/
def outcome? : Task I α → Option (Except Failure α)
  | .done a => some (.ok a)
  | .fail e => some (.error e)
  | .ask _ _ => none

/-- Runs a task against its surroundings until it ends or the surroundings leave a question
open. -/
def settle (answer : (q : I.Ask) → σ → Option (I.Answer q) × σ) : Task I α → σ → Task I α × σ
  | .done a, s => (.done a, s)
  | .fail e, s => (.fail e, s)
  | .ask q next, s =>
    match answer q s with
    | (some a, s) => (next a).settle answer s
    | (none, s) => (.ask q next, s)

/-! ## Laws -/

@[simp] theorem pure_eq (a : α) : (pure a : Task I α) = .done a := rfl

@[simp] theorem bind_eq (t : Task I α) (f : α → Task I β) : (t >>= f) = t.bind f := rfl

@[simp] theorem done_bind (a : α) (f : α → Task I β) : (done a).bind f = f a := rfl

@[simp] theorem fail_bind (e : Failure) (f : α → Task I β) : (fail e).bind f = .fail e := rfl

@[simp] theorem ask_bind (q : I.Ask) (next : I.Answer q → Task I α) (f : α → Task I β) :
    (ask q next).bind f = .ask q fun answer => (next answer).bind f := rfl

@[simp] theorem bind_done (t : Task I α) : t.bind .done = t := by
  induction t with
  | done | fail => rfl
  | ask q next ih => exact congrArg (ask q) (funext ih)

theorem bind_assoc {γ : Type} (t : Task I α) (f : α → Task I β) (g : β → Task I γ) :
    (t.bind f).bind g = t.bind fun a => (f a).bind g := by
  induction t with
  | done | fail => rfl
  | ask q next ih => exact congrArg (ask q) (funext ih)

/-- Of two tasks in a row each is settled in its turn. -/
theorem via_bind (settle : (q : I.Ask) → Task J (I.Answer q)) (t : Task I α) (f : α → Task I β) :
    (t.bind f).via settle = (t.via settle).bind fun a => (f a).via settle := by
  induction t with
  | done | fail => rfl
  | ask q next ih =>
    show (settle q).bind (fun answer => ((next answer).bind f).via settle) = _
    rw [funext ih]
    exact (bind_assoc _ _ _).symm

/-- Work that has to wait stops at the question that it waits for. -/
theorem settle_ask (answer : (q : I.Ask) → σ → Option (I.Answer q) × σ) (q : I.Ask)
    (next : I.Answer q → Task I α) (s : σ) :
    (ask q next).settle answer s =
      match answer q s with
      | (some a, s) => (next a).settle answer s
      | (none, s) => (ask q next, s) := by
  rw [settle]

end Task

end Socks5
