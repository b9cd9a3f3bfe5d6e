import Socks5.Task.Dialogue

/-!
# Terms of a dialogue

What holds of a task under terms: as long as the surroundings answer as the terms allow, the task
puts only questions that they permit, and ends as was said. Terms speak about everything that was
said before, so that an invariant of a session is a term. Main statements: terms are kept by two
tasks in a row if the second keeps them wherever the first can end (`Keeps.bind`), a task that
keeps them stands well after every dialogue (`Keeps.stands`), and every task can go on within them
until it is settled (`exists_settled`).
-/

namespace Socks5

/-- Which answers may be relied on, and which questions may be put, after what was said before. -/
structure Terms (I : Interface) where
  allows : Dialogue I → Exchange I → Prop := fun _ _ => True
  permits : Dialogue I → I.Ask → Prop

namespace Terms

variable {I : Interface}

/-- Every answer of a dialogue is one that the terms allow after what was said before it. -/
def Honoured (terms : Terms I) : (past d : Dialogue I) → Prop
  | _, [] => True
  | past, x :: d => terms.allows past x ∧ terms.Honoured (past ++ [x]) d

variable {terms : Terms I}

@[simp] theorem honoured_nil (past : Dialogue I) : terms.Honoured past [] := trivial

theorem honoured_cons {past d : Dialogue I} {x : Exchange I} :
    terms.Honoured past (x :: d) ↔ terms.allows past x ∧ terms.Honoured (past ++ [x]) d := Iff.rfl

theorem honoured_append {past d d' : Dialogue I} :
    terms.Honoured past (d ++ d') ↔ terms.Honoured past d ∧ terms.Honoured (past ++ d) d' := by
  induction d generalizing past with
  | nil => simp
  | cons x d ih => simp [honoured_cons, ih, and_assoc]

/-- What is honoured on terms is honoured on terms that allow more. -/
theorem Honoured.mono {terms' : Terms I} {past d : Dialogue I} (h : terms.Honoured past d)
    (hallows : ∀ past x, terms.allows past x → terms'.allows past x) :
    terms'.Honoured past d := by
  induction d generalizing past with
  | nil => trivial
  | cons x d ih => exact ⟨hallows past x h.1, ih h.2⟩

/-- A dialogue that is put to others is honoured as it is honoured by itself, if each of its answers
is allowed after what it has become there. -/
theorem honoured_map_iff {J : Interface} {terms' : Terms J} {f : Exchange J → Exchange I}
    {past : Dialogue I} {d : Dialogue J}
    (h : ∀ d x, terms.allows (past ++ d.map f) (f x) ↔ terms'.allows d x) :
    terms.Honoured past (d.map f) ↔ terms'.Honoured [] d := by
  have hshift : ∀ d' : Dialogue J, terms.Honoured (past ++ d'.map f) (d.map f) ↔
      terms'.Honoured d' d := by
    induction d with
    | nil => exact fun _ => Iff.rfl
    | cons x d ih =>
      intro d'
      have hd := ih (d' ++ [x])
      rw [List.map_append, List.map_singleton, ← List.append_assoc] at hd
      rw [List.map_cons, honoured_cons, honoured_cons, hd, h d' x]
  simpa using hshift []

/-- Terms that rely on nothing are honoured by every dialogue. -/
theorem honoured_of_allows (h : ∀ past x, terms.allows past x) (past d : Dialogue I) :
    terms.Honoured past d := by
  induction d generalizing past with
  | nil => trivial
  | cons x d ih => exact ⟨h past x, ih _⟩

end Terms

namespace Task

variable {I : Interface} {α β : Type} {terms : Terms I} {past : Dialogue I}

/-- How things may stand after a dialogue: the next question is permitted, or the end is as it
should be. -/
def Stands (terms : Terms I) (ending : Dialogue I → Except Failure α → Prop) (past : Dialogue I) :
    Task I α → Prop
  | .done a => ending past (.ok a)
  | .fail e => ending past (.error e)
  | .ask q _ => terms.permits past q

/-- A task keeps to the terms and ends as it should, whatever is answered within the terms. -/
def Keeps (terms : Terms I) (past : Dialogue I) (t : Task I α)
    (ending : Dialogue I → Except Failure α → Prop) : Prop :=
  ∀ ⦃d u⦄, Leads t d u → terms.Honoured past d → u.Stands terms ending (past ++ d)

variable {ending : Dialogue I → Except Failure α → Prop}

@[simp] theorem keeps_done {a : α} : (done a).Keeps terms past ending ↔ ending past (.ok a) := by
  constructor
  · intro h
    simpa [Stands] using h (.refl _) trivial
  · intro h d u hl _
    obtain ⟨rfl, rfl⟩ := leads_done_iff.1 hl
    simpa [Stands] using h

@[simp] theorem keeps_fail {e : Failure} :
    (fail e : Task I α).Keeps terms past ending ↔ ending past (.error e) := by
  constructor
  · intro h
    simpa [Stands] using h (.refl _) trivial
  · intro h d u hl _
    obtain ⟨rfl, rfl⟩ := leads_fail_iff.1 hl
    simpa [Stands] using h

theorem keeps_ask {q : I.Ask} {next : I.Answer q → Task I α} :
    (ask q next).Keeps terms past ending ↔
      terms.permits past q ∧
        ∀ a, terms.allows past ⟨q, a⟩ → (next a).Keeps terms (past ++ [⟨q, a⟩]) ending := by
  constructor
  · intro h
    refine ⟨by simpa [Stands] using h (.refl _) trivial, fun a ha d u hl hd => ?_⟩
    simpa using h (.step hl) ⟨ha, hd⟩
  · rintro ⟨hq, hnext⟩ d u hl hd
    rcases leads_ask_iff.1 hl with ⟨rfl, rfl⟩ | ⟨a, d', rfl, hl'⟩
    · simpa [Stands] using hq
    · simpa using hnext a hd.1 hl' hd.2

namespace Keeps

/-- A task may be relied on for less than it keeps. -/
theorem weaken {t : Task I α} {ending' : Dialogue I → Except Failure α → Prop}
    (h : t.Keeps terms past ending) (himp : ∀ p r, ending p r → ending' p r) :
    t.Keeps terms past ending' := by
  intro d u hl hd
  have hu := h hl hd
  cases u with
  | done a => exact himp _ _ hu
  | fail e => exact himp _ _ hu
  | ask q next => exact hu

/-- Two tasks in a row keep the terms if the second does so wherever the first may end. -/
theorem bind {t : Task I α} {f : α → Task I β} {middle : Dialogue I → Except Failure α → Prop}
    {ending : Dialogue I → Except Failure β → Prop} (h : t.Keeps terms past middle)
    (hok : ∀ p a, middle p (.ok a) → (f a).Keeps terms p ending)
    (herr : ∀ p e, middle p (.error e) → ending p (.error e)) :
    (t.bind f).Keeps terms past ending := by
  intro d v hl hd
  rcases leads_bind_iff.1 hl with ⟨u, hu, rfl⟩ | ⟨a, d₁, d₂, rfl, h₁, h₂⟩
  · have hs := h hu hd
    cases u with
    | done a => simpa using hok _ _ hs (.refl _) trivial
    | fail e => exact herr _ _ hs
    | ask q next => exact hs
  · rw [Terms.honoured_append] at hd
    have hs := hok _ _ (h h₁ hd.1) h₂ hd.2
    rwa [List.append_assoc] at hs

/-- A failure that is a value ends the task as any value does. -/
theorem attempt {t : Task I α} {ending : Dialogue I → Except Failure (Except Failure α) → Prop}
    (h : t.Keeps terms past fun p r => ending p (.ok r)) : t.attempt.Keeps terms past ending := by
  intro d v hl hd
  obtain ⟨u, hu, rfl⟩ := leads_attempt_iff.1 hl
  have hs := h hu hd
  cases u with
  | done a => exact hs
  | fail e => exact hs
  | ask q next => exact hs

/-- What is done with an outcome keeps the terms if it does so wherever the task may end. -/
theorem attempt_bind {t : Task I α} {f : Except Failure α → Task I β}
    {middle : Dialogue I → Except Failure α → Prop} {ending : Dialogue I → Except Failure β → Prop}
    (h : t.Keeps terms past middle) (hnext : ∀ p r, middle p r → (f r).Keeps terms p ending) :
    (t.attempt.bind f).Keeps terms past ending := by
  have hattempt : t.attempt.Keeps terms past fun p r => ∃ outcome, r = .ok outcome ∧
      middle p outcome := .attempt (h.weaken fun p r hr => ⟨r, rfl, hr⟩)
  refine hattempt.bind ?_ ?_
  · intro p outcome hp
    obtain ⟨_, hok, hmiddle⟩ := hp
    cases hok
    exact hnext p outcome hmiddle
  · intro p e hp
    obtain ⟨_, hok, _⟩ := hp
    cases hok

/-- What is left of a task after a dialogue goes on to keep the terms. -/
theorem leads {t u : Task I α} {d : Dialogue I} (h : t.Keeps terms past ending)
    (hl : Leads t d u) (hd : terms.Honoured past d) : u.Keeps terms (past ++ d) ending := by
  intro d' v hl' hd'
  rw [List.append_assoc]
  exact h (hl.trans hl') (Terms.honoured_append.2 ⟨hd, hd'⟩)

/-- What a task that keeps the terms has come to after a dialogue from the beginning. -/
theorem stands {t u : Task I α} {d : Dialogue I} (h : t.Keeps terms [] ending)
    (hl : Leads t d u) (hd : terms.Honoured [] d) : u.Stands terms ending d := by
  simpa using h hl hd

end Keeps

/-- No answer is allowed to what the task asks, if it asks anything. -/
def Settled (terms : Terms I) (past : Dialogue I) (t : Task I α) : Prop :=
  ∀ q next, t = .ask q next → ∀ a, ¬ terms.allows past ⟨q, a⟩

theorem settled_done (a : α) : (done a).Settled terms past := by
  intro q next h
  cases h

theorem settled_fail (e : Failure) : (fail e : Task I α).Settled terms past := by
  intro q next h
  cases h

theorem settled_ofExcept (r : Except Failure α) : (ofExcept r : Task I α).Settled terms past := by
  cases r with
  | ok a => exact settled_done a
  | error e => exact settled_fail e

/-- A task goes on with another one after an answer. -/
def GoesOn (u t : Task I α) : Prop := ∃ q next a, t = .ask q next ∧ u = next a

theorem wellFounded_goesOn : WellFounded (GoesOn (I := I) (α := α)) := by
  refine ⟨fun t => ?_⟩
  induction t with
  | done a => exact ⟨_, by rintro u ⟨_, _, _, h, _⟩; cases h⟩
  | fail e => exact ⟨_, by rintro u ⟨_, _, _, h, _⟩; cases h⟩
  | ask q next ih =>
    refine ⟨_, ?_⟩
    rintro u ⟨_, _, a, h, rfl⟩
    cases h
    exact ih a

/-- Two tasks in a row are settled only if the first one is. -/
theorem Settled.of_bind {t : Task I α} {f : α → Task I β}
    (h : (t.bind f).Settled terms past) : t.Settled terms past := by
  rintro q next rfl a
  exact h q _ rfl a

theorem Settled.of_attempt {t : Task I α} (h : t.attempt.Settled terms past) :
    t.Settled terms past := by
  rintro q next rfl a
  exact h q _ rfl a

end Task

/-- The terms on which a task comes to an aim: it has done so wherever no answer is left to its
question. -/
def Terms.reaching {I : Interface} (terms : Terms I) (aim : Dialogue I → Prop) : Terms I where
  allows := terms.allows
  permits past q := (∀ a, ¬ terms.allows past ⟨q, a⟩) → aim past

namespace Task

variable {I : Interface} {α β : Type} {terms : Terms I} {past : Dialogue I}
  {aim : Dialogue I → Prop}

theorem honoured_reaching {d : Dialogue I} :
    (terms.reaching aim).Honoured past d ↔ terms.Honoured past d := by
  induction d generalizing past with
  | nil => exact Iff.rfl
  | cons x d ih =>
    rw [Terms.honoured_cons, Terms.honoured_cons, ih]
    exact Iff.rfl

/-- A task comes on the terms to one of some cases: `none` is that it waits for an answer that is
not to come. -/
def Resolves (t : Task I α) (terms : Terms I)
    (case : Dialogue I → Option (Except Failure α) → Prop) (past : Dialogue I) : Prop :=
  t.Keeps (terms.reaching fun p => case p none) past fun p r => case p (some r)

/-- Which case it has come to is seen once it is settled. -/
theorem Resolves.of_settled {t u : Task I α} {d : Dialogue I}
    {case : Dialogue I → Option (Except Failure α) → Prop} (h : t.Resolves terms case past)
    (hl : Leads t d u) (hd : terms.Honoured past d) (hsettled : u.Settled terms (past ++ d)) :
    case (past ++ d) u.outcome? := by
  have hstands := h hl (honoured_reaching.2 hd)
  cases u with
  | done a => exact hstands
  | fail e => exact hstands
  | ask q next => exact hstands (hsettled q next rfl)

theorem outcome?_eq_some_iff {t : Task I α} {r : Except Failure α} :
    t.outcome? = some r ↔ t = .ofExcept r := by
  cases r with
  | ok a => cases t <;> simp [outcome?, ofExcept]
  | error e => cases t <;> simp [outcome?, ofExcept]

/-- Two tasks in a row that are settled: the first one has come to one of its cases, and not to a
value; or it has come to a value, with which the second one has gone on. -/
theorem Resolves.bind_cases {t : Task I α} {f : α → Task I β} {v : Task I β} {d : Dialogue I}
    {case : Dialogue I → Option (Except Failure α) → Prop} (h : t.Resolves terms case past)
    (hl : Leads (t.bind f) d v) (hd : terms.Honoured past d)
    (hsettled : v.Settled terms (past ++ d)) :
    (∃ u, Leads t d u ∧ v = u.bind f ∧ (∀ a, u ≠ .done a) ∧ case (past ++ d) u.outcome?) ∨
      ∃ a d₁ d₂, d = d₁ ++ d₂ ∧ Leads t d₁ (.done a) ∧ case (past ++ d₁) (some (.ok a)) ∧
        Leads (f a) d₂ v := by
  rcases leads_bind_iff.1 hl with ⟨u, hu, rfl⟩ | ⟨a, d₁, d₂, rfl, h₁, h₂⟩
  · have hcase := h.of_settled hu hd hsettled.of_bind
    cases u with
    | done a => exact .inr ⟨a, d, [], (List.append_nil d).symm, hu, hcase, .refl _⟩
    | fail e => exact .inl ⟨_, hu, rfl, nofun, hcase⟩
    | ask q next => exact .inl ⟨_, hu, rfl, nofun, hcase⟩
  · have hd₁ := (Terms.honoured_append.1 hd).1
    exact .inr ⟨a, d₁, d₂, rfl, h₁, h.of_settled h₁ hd₁ (settled_done a), h₂⟩

/-! ## Kinds of questions -/

/-- A task asks only questions of a kind, whatever it is answered. -/
def AsksOnly (kind : I.Ask → Prop) : Task I α → Prop
  | .done _ | .fail _ => True
  | .ask q next => kind q ∧ ∀ a, (next a).AsksOnly kind

namespace AsksOnly

variable {kind kind' : I.Ask → Prop} {t u : Task I α}

theorem bind {f : α → Task I β} (h : t.AsksOnly kind) (hf : ∀ a, (f a).AsksOnly kind) :
    (t.bind f).AsksOnly kind := by
  induction t with
  | done a => exact hf a
  | fail e => trivial
  | ask q next ih => exact ⟨h.1, fun a => ih a (h.2 a)⟩

theorem attempt (h : t.AsksOnly kind) : t.attempt.AsksOnly kind := by
  induction t with
  | done a => trivial
  | fail e => trivial
  | ask q next ih => exact ⟨h.1, fun a => ih a (h.2 a)⟩

theorem mono (h : t.AsksOnly kind) (himp : ∀ q, kind q → kind' q) : t.AsksOnly kind' := by
  induction t with
  | done a => trivial
  | fail e => trivial
  | ask q next ih => exact ⟨himp q h.1, fun a => ih a (h.2 a)⟩

theorem leads {d : Dialogue I} (h : t.AsksOnly kind) (hl : Leads t d u) : u.AsksOnly kind := by
  induction hl with
  | refl => exact h
  | step _ ih => exact ih (h.2 _)

/-- So is every question of its dialogues. -/
theorem of_mem {d : Dialogue I} (h : t.AsksOnly kind) (hl : Leads t d u) :
    ∀ x ∈ d, kind x.question := by
  induction hl with
  | refl => simp
  | step _ ih =>
    intro x hx
    rcases List.mem_cons.1 hx with rfl | hx
    · exact h.1
    · exact ih (h.2 _) x hx

/-- Work of a kind keeps the terms if they permit that kind for as long as nothing else is asked. -/
theorem keeps (h : t.AsksOnly kind)
    (hpermits : ∀ d q, (∀ x ∈ d, kind x.question) → kind q → terms.permits (past ++ d) q) :
    t.Keeps terms past fun p r =>
      ∃ d, p = past ++ d ∧ (∀ x ∈ d, kind x.question) ∧ Leads t d (.ofExcept r) := by
  intro d u hl _
  have hd : ∀ x ∈ d, kind x.question := h.of_mem hl
  have hu := h.leads hl
  cases u with
  | done a => exact ⟨d, rfl, hd, hl⟩
  | fail e => exact ⟨d, rfl, hd, hl⟩
  | ask q next => exact hpermits d q hd hu.1

end AsksOnly

/-! ## Kinds of failures -/

/-- A task fails only in ways of a kind, whatever it is answered. -/
def FailsOnly (kind : Failure → Prop) : Task I α → Prop
  | .done _ => True
  | .fail e => kind e
  | .ask _ next => ∀ a, (next a).FailsOnly kind

namespace FailsOnly

variable {kind : Failure → Prop} {t : Task I α}

theorem bind {f : α → Task I β} (h : t.FailsOnly kind) (hf : ∀ a, (f a).FailsOnly kind) :
    (t.bind f).FailsOnly kind := by
  induction t with
  | done a => exact hf a
  | fail e => exact h
  | ask q next ih => exact fun a => ih a (h a)

/-- A failure that is a value is none. -/
theorem attempt (t : Task I α) : t.attempt.FailsOnly kind := by
  induction t with
  | done a => trivial
  | fail e => trivial
  | ask q next ih => exact fun a => ih a

theorem of_leads {d : Dialogue I} {e : Failure} (h : t.FailsOnly kind)
    (hl : Leads t d (.fail e)) : kind e := by
  induction t generalizing d with
  | done a => cases (leads_done_iff.1 hl).2
  | fail e' =>
    cases (leads_fail_iff.1 hl).2
    exact h
  | ask q next ih =>
    rcases leads_ask_iff.1 hl with ⟨_, hfail⟩ | ⟨a, d', _, hl'⟩
    · cases hfail
    · exact ih a (h a) hl'

end FailsOnly

/-! ## Dialogues in parts -/

/-- The front of a dialogue is a dialogue, and the rest goes on from where it leads. -/
theorem Leads.split {t v : Task I α} {d₁ d₂ : Dialogue I} (h : Leads t (d₁ ++ d₂) v) :
    ∃ u, Leads t d₁ u ∧ Leads u d₂ v := by
  induction d₁ generalizing t with
  | nil => exact ⟨t, .refl _, h⟩
  | cons x d₁ ih =>
    cases h with
    | step h =>
      obtain ⟨u, hu, hv⟩ := ih h
      exact ⟨u, .step hu, hv⟩

/-- A task that is settled has nothing more to say. -/
theorem leads_ofExcept_iff {r : Except Failure α} {d : Dialogue I} {t : Task I α} :
    Leads (.ofExcept r) d t ↔ d = [] ∧ t = .ofExcept r := by
  cases r with
  | ok a => exact leads_done_iff
  | error e => exact leads_fail_iff

theorem ofExcept_injective {r r' : Except Failure α}
    (h : (ofExcept r : Task I α) = .ofExcept r') : r = r' := by
  cases r with
  | ok a =>
    cases r' with
    | ok b =>
      cases h
      rfl
    | error e => cases h
  | error e =>
    cases r' with
    | ok b => cases h
    | error e' =>
      cases h
      rfl

/-- A task is settled at one place of a dialogue, and in one way. -/
theorem Leads.eq_of_append {t : Task I α} {r r' : Except Failure α} {d d' e e' : Dialogue I}
    (h : Leads t d (.ofExcept r)) (h' : Leads t d' (.ofExcept r')) (he : d ++ e = d' ++ e') :
    d = d' ∧ r = r' ∧ e = e' := by
  rcases List.append_eq_append_iff.1 he with ⟨c, rfl, rfl⟩ | ⟨c, rfl, rfl⟩
  · obtain ⟨u, hu, hc⟩ := h'.split
    obtain rfl := hu.unique h
    obtain ⟨rfl, hr⟩ := leads_ofExcept_iff.1 hc
    exact ⟨by simp, (ofExcept_injective hr).symm, rfl⟩
  · obtain ⟨u, hu, hc⟩ := h.split
    obtain rfl := hu.unique h'
    obtain ⟨rfl, hr⟩ := leads_ofExcept_iff.1 hc
    exact ⟨by simp, ofExcept_injective hr, rfl⟩

/-- Two tasks in a row have come to their end if both have. -/
theorem leads_bind_done_iff {t : Task I α} {f : α → Task I β} {d : Dialogue I} {b : β} :
    Leads (t.bind f) d (.done b) ↔
      ∃ a d₁ d₂, d = d₁ ++ d₂ ∧ Leads t d₁ (.done a) ∧ Leads (f a) d₂ (.done b) := by
  constructor
  · intro h
    rcases leads_bind_iff.1 h with ⟨u, hu, hdone⟩ | h'
    · cases u with
      | done a => exact ⟨a, d, [], by simp, hu, hdone ▸ .refl _⟩
      | fail e => cases hdone
      | ask q next => cases hdone
    · exact h'
  · exact fun h => leads_bind_iff.2 (.inr h)

/-- What is done with the outcome of a task comes after the outcome. -/
theorem leads_attempt_bind {t : Task I α} {g : Except Failure α → Task I β} {d : Dialogue I}
    {v : Task I β} (h : Leads (t.attempt.bind g) d v) :
    (∃ q next, Leads t d (.ask q next) ∧ v = (ask q next).attempt.bind g) ∨
      ∃ r d₁ d₂, d = d₁ ++ d₂ ∧ Leads t d₁ (.ofExcept r) ∧ Leads (g r) d₂ v := by
  induction t generalizing d with
  | done a => exact .inr ⟨.ok a, [], d, rfl, .refl _, h⟩
  | fail e => exact .inr ⟨.error e, [], d, rfl, .refl _, h⟩
  | ask q next ih =>
    rcases leads_ask_iff.1 h with ⟨rfl, rfl⟩ | ⟨a, d', rfl, h'⟩
    · exact .inl ⟨q, next, .refl _, rfl⟩
    · rcases ih a h' with ⟨p, next', hwaits, rfl⟩ | ⟨r, d₁, d₂, rfl, h₁, h₂⟩
      · exact .inl ⟨p, next', .step hwaits, rfl⟩
      · exact .inr ⟨r, ⟨q, a⟩ :: d₁, d₂, rfl, .step h₁, h₂⟩

/-- What is done with the outcome of two tasks in a row comes after a failure of the first, or
after the second. -/
theorem leads_bind_attempt_bind {γ : Type} {t : Task I α} {f : α → Task I β}
    {g : Except Failure β → Task I γ} {d : Dialogue I} {v : Task I γ}
    (h : Leads ((t.bind f).attempt.bind g) d v) :
    (∃ u, Leads t d u ∧ v = (u.bind f).attempt.bind g) ∨
      (∃ e d₁ d₂, d = d₁ ++ d₂ ∧ Leads t d₁ (.fail e) ∧ Leads (g (.error e)) d₂ v) ∨
      ∃ a d₁ d₂, d = d₁ ++ d₂ ∧ Leads t d₁ (.done a) ∧ Leads ((f a).attempt.bind g) d₂ v := by
  induction t generalizing d with
  | done a => exact .inr (.inr ⟨a, [], d, rfl, .refl _, h⟩)
  | fail e => exact .inr (.inl ⟨e, [], d, rfl, .refl _, h⟩)
  | ask q next ih =>
    rcases leads_ask_iff.1 h with ⟨rfl, rfl⟩ | ⟨a, d', rfl, h'⟩
    · exact .inl ⟨_, .refl _, rfl⟩
    · rcases ih a h' with ⟨u, hu, rfl⟩ | ⟨e, d₁, d₂, rfl, h₁, h₂⟩ | ⟨b, d₁, d₂, rfl, h₁, h₂⟩
      · exact .inl ⟨u, .step hu, rfl⟩
      · exact .inr (.inl ⟨e, ⟨q, a⟩ :: d₁, d₂, rfl, .step h₁, h₂⟩)
      · exact .inr (.inr ⟨b, ⟨q, a⟩ :: d₁, d₂, rfl, .step h₁, h₂⟩)

end Task

end Socks5
