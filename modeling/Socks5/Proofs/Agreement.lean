import Socks5.Task.Dialogue

/-!
# Tasks that cannot be told apart

Two tasks may differ and still say the same in every dialogue in which nothing comes up that they
differ in. Main statement: of two tasks that agree, each dialogue of the one in which nothing comes
up is one of the other, and leads both to the same question or the same end (`AgreesWhile.leads`).
-/

namespace Socks5.Task

variable {I : Interface} {α β : Type}

/-- What a task asks, unless it has ended. -/
def asks? : Task I α → Option I.Ask
  | .done _ | .fail _ => none
  | .ask q _ => some q

/-- Two tasks ask the same questions and end alike, for as long as the dialogue is clear of what
they differ in. -/
inductive AgreesWhile (clear : Dialogue I → Prop) : Dialogue I → Task I α → Task I α → Prop where
  | done {past : Dialogue I} (a : α) : AgreesWhile clear past (.done a) (.done a)
  | fail {past : Dialogue I} (e : Failure) : AgreesWhile clear past (.fail e) (.fail e)
  | ask {past : Dialogue I} {q : I.Ask} {next next' : I.Answer q → Task I α}
      (h : ∀ a, clear (past ++ [⟨q, a⟩]) →
        AgreesWhile clear (past ++ [⟨q, a⟩]) (next a) (next' a)) :
      AgreesWhile clear past (.ask q next) (.ask q next')

namespace AgreesWhile

variable {clear : Dialogue I → Prop} {past d : Dialogue I} {t t' u : Task I α}

theorem refl (past : Dialogue I) (t : Task I α) : AgreesWhile clear past t t := by
  induction t generalizing past with
  | done a => exact .done a
  | fail e => exact .fail e
  | ask q next ih => exact .ask fun a _ => ih a _

/-- Two tasks in a row agree with two others if the second ones do wherever the first ones can
end. -/
theorem bind {f f' : α → Task I β} (h : AgreesWhile clear past t t') (hpast : clear past)
    (hnext : ∀ d a, Leads t d (.done a) → clear (past ++ d) →
      AgreesWhile clear (past ++ d) (f a) (f' a)) :
    AgreesWhile clear past (t.bind f) (t'.bind f') := by
  induction h with
  | done a =>
    have hdone := hnext [] a (.refl _)
    rw [List.append_nil] at hdone
    exact hdone hpast
  | fail e => exact .fail e
  | @ask past q next next' h ih =>
    refine .ask fun a ha => ih a ha ha fun d b hl hd => ?_
    have hfrom := hnext (⟨q, a⟩ :: d) b (.step hl)
    rw [List.append_assoc] at hd ⊢
    exact hfrom hd

/-- What is done after the same work agrees if it does wherever the work can end. -/
theorem bind_left {f f' : α → Task I β} (hpast : clear past)
    (hnext : ∀ d a, Leads t d (.done a) → clear (past ++ d) →
      AgreesWhile clear (past ++ d) (f a) (f' a)) :
    AgreesWhile clear past (t.bind f) (t.bind f') :=
  (refl past t).bind hpast hnext

/-- So it does after the same question. -/
theorem put_bind {q : I.Ask} {f f' : I.Answer q → Task I β}
    (hnext : ∀ a, clear (past ++ [⟨q, a⟩]) → AgreesWhile clear (past ++ [⟨q, a⟩]) (f a) (f' a)) :
    AgreesWhile clear past ((put q).bind f) ((put q).bind f') := .ask hnext

theorem attempt (h : AgreesWhile clear past t t') :
    AgreesWhile clear past t.attempt t'.attempt := by
  induction h with
  | done a => exact .done _
  | fail e => exact .done _
  | ask h ih => exact .ask ih

/-- Tasks that agree have come to the same. -/
theorem outcome?_eq (h : AgreesWhile clear past t t') : t'.outcome? = t.outcome? := by
  cases h <;> rfl

theorem asks?_eq (h : AgreesWhile clear past t t') : t'.asks? = t.asks? := by
  cases h <;> rfl

/-- A clear dialogue of the one is one of the other, and they agree after it. -/
theorem leads (h : AgreesWhile clear past t t') (hfront : ∀ d d', clear (d ++ d') → clear d)
    (hl : Leads t d u) (hd : clear (past ++ d)) :
    ∃ u', Leads t' d u' ∧ AgreesWhile clear (past ++ d) u u' := by
  induction hl generalizing past t' with
  | refl t =>
    rw [List.append_nil]
    exact ⟨t', .refl t', h⟩
  | @step q next a d u hl ih =>
    cases h with
    | ask h =>
      have hsplit : past ++ ⟨q, a⟩ :: d = past ++ [⟨q, a⟩] ++ d := by simp
      rw [hsplit] at hd ⊢
      obtain ⟨u', hl', hu⟩ := ih (h a (hfront _ _ hd)) hd
      exact ⟨u', .step hl', hu⟩

end AgreesWhile

end Socks5.Task
