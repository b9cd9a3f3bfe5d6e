import Socks5.Task

/-!
# Dialogues

What a task and its surroundings say to each other: question by question, with the answers. What
holds of every dialogue of a task holds whatever the surroundings are and whatever comes between
its questions. Main statement: a dialogue of two tasks in a row is one of the first, or a whole one
of the first and one of the second (`leads_bind_iff`).
-/

namespace Socks5

/-- A question and its answer. -/
structure Exchange (I : Interface) where
  question : I.Ask
  answer : I.Answer question

/-- Questions and their answers, the first one first. -/
abbrev Dialogue (I : Interface) := List (Exchange I)

namespace Task

variable {I : Interface} {α β σ : Type}

/-- A dialogue leads from a task to what is left of it. -/
inductive Leads : Task I α → Dialogue I → Task I α → Prop where
  | refl (t : Task I α) : Leads t [] t
  | step {q : I.Ask} {next : I.Answer q → Task I α} {a : I.Answer q} {d : Dialogue I}
      {t : Task I α} : Leads (next a) d t → Leads (.ask q next) (⟨q, a⟩ :: d) t

namespace Leads

theorem trans {t u v : Task I α} {d d' : Dialogue I} (h : Leads t d u) (h' : Leads u d' v) :
    Leads t (d ++ d') v := by
  induction h with
  | refl => exact h'
  | step _ ih => exact .step (ih h')

/-- What a dialogue leads to depends on nothing else. -/
theorem unique {t u v : Task I α} {d : Dialogue I} (h : Leads t d u) (h' : Leads t d v) :
    u = v := by
  induction h with
  | refl => cases h'; rfl
  | step _ ih =>
    cases h' with
    | step h' => exact ih h'

/-- A dialogue of the first of two tasks is one of both. -/
theorem bind {t u : Task I α} {d : Dialogue I} (h : Leads t d u) (f : α → Task I β) :
    Leads (t.bind f) d (u.bind f) := by
  induction h with
  | refl => exact .refl _
  | step _ ih => exact .step ih

theorem attempt {t u : Task I α} {d : Dialogue I} (h : Leads t d u) :
    Leads t.attempt d u.attempt := by
  induction h with
  | refl => exact .refl _
  | step _ ih => exact .step ih

end Leads

@[simp] theorem leads_done_iff {a : α} {d : Dialogue I} {t : Task I α} :
    Leads (.done a) d t ↔ d = [] ∧ t = .done a := by
  constructor
  · rintro ⟨⟩
    exact ⟨rfl, rfl⟩
  · rintro ⟨rfl, rfl⟩
    exact .refl _

@[simp] theorem leads_fail_iff {e : Failure} {d : Dialogue I} {t : Task I α} :
    Leads (.fail e) d t ↔ d = [] ∧ t = .fail e := by
  constructor
  · rintro ⟨⟩
    exact ⟨rfl, rfl⟩
  · rintro ⟨rfl, rfl⟩
    exact .refl _

theorem leads_ask_iff {q : I.Ask} {next : I.Answer q → Task I α} {d : Dialogue I}
    {t : Task I α} :
    Leads (.ask q next) d t ↔
      (d = [] ∧ t = .ask q next) ∨ ∃ a d', d = ⟨q, a⟩ :: d' ∧ Leads (next a) d' t := by
  constructor
  · intro h
    cases h with
    | refl => exact .inl ⟨rfl, rfl⟩
    | step h => exact .inr ⟨_, _, rfl, h⟩
  · rintro (⟨rfl, rfl⟩ | ⟨a, d', rfl, h⟩)
    · exact .refl _
    · exact .step h

/-- A dialogue of two tasks in a row stays within the first, or goes through the whole of it and
on with the second. -/
theorem leads_bind_iff {t : Task I α} {f : α → Task I β} {d : Dialogue I} {v : Task I β} :
    Leads (t.bind f) d v ↔
      (∃ u, Leads t d u ∧ v = u.bind f) ∨
        ∃ a d₁ d₂, d = d₁ ++ d₂ ∧ Leads t d₁ (.done a) ∧ Leads (f a) d₂ v := by
  constructor
  · intro h
    induction t generalizing d with
    | done a => exact .inr ⟨a, [], d, rfl, .refl _, h⟩
    | fail e =>
      obtain ⟨rfl, rfl⟩ := leads_fail_iff.1 h
      exact .inl ⟨_, .refl _, rfl⟩
    | ask q next ih =>
      rcases leads_ask_iff.1 h with ⟨rfl, rfl⟩ | ⟨a, d', rfl, h'⟩
      · exact .inl ⟨_, .refl _, rfl⟩
      · rcases ih a h' with ⟨u, hu, rfl⟩ | ⟨b, d₁, d₂, rfl, h₁, h₂⟩
        · exact .inl ⟨u, .step hu, rfl⟩
        · exact .inr ⟨b, ⟨q, a⟩ :: d₁, d₂, rfl, .step h₁, h₂⟩
  · rintro (⟨u, hu, rfl⟩ | ⟨a, d₁, d₂, rfl, h₁, h₂⟩)
    · exact hu.bind f
    · exact (h₁.bind f).trans h₂

/-- A task whose failure is a value has the dialogues of the task itself. -/
theorem leads_attempt_iff {t : Task I α} {d : Dialogue I} {v : Task I (Except Failure α)} :
    Leads t.attempt d v ↔ ∃ u, Leads t d u ∧ v = u.attempt := by
  constructor
  · intro h
    induction t generalizing d with
    | done a =>
      obtain ⟨rfl, rfl⟩ := leads_done_iff.1 h
      exact ⟨_, .refl _, rfl⟩
    | fail e =>
      obtain ⟨rfl, rfl⟩ := leads_done_iff.1 h
      exact ⟨_, .refl _, rfl⟩
    | ask q next ih =>
      rcases leads_ask_iff.1 h with ⟨rfl, rfl⟩ | ⟨a, d', rfl, h'⟩
      · exact ⟨_, .refl _, rfl⟩
      · obtain ⟨u, hu, rfl⟩ := ih a h'
        exact ⟨u, .step hu, rfl⟩
  · rintro ⟨u, hu, rfl⟩
    exact hu.attempt

end Task

end Socks5
