import Socks5.Proofs.Session.Books
import Mathlib.Algebra.BigOperators.Group.List.Basic
import Mathlib.Algebra.GroupWithZero.Nat
import Mathlib.Data.List.Nodup

/-!
# A shared registry

Ids are taken once and in order. A session is closed by one attempt, however many race for it, and
then it is in its final state for good. While no attempt is under way the sessions that are
registered are those that were created and not closed. What calls return adds up. Main statement:
`integrity_after`.
-/

namespace Socks5

/-! ## Changes of handles -/

namespace Registry

variable {r : Registry} {id : Nat} {p : Handle → Bool}

/-- What a change of a handle keeps holds of it afterwards. -/
theorem any_update {other : Nat} {change : Handle → Handle} (hchange : ∀ h, p h → p (change h))
    (h : (r.handle? id).any p) : ((r.update other change).handle? id).any p := by
  rw [handle?_update]
  by_cases hid : id = other
  · subst hid
    rw [if_pos rfl]
    cases hhandle : r.handle? id with
    | none => simp [hhandle] at h
    | some handle =>
      rw [hhandle] at h
      exact hchange handle h
  · rwa [if_neg hid]

theorem length_handles_update (r : Registry) (id : Nat) (change : Handle → Handle) :
    (r.update id change).handles.length = r.handles.length := by
  unfold update
  split <;> simp

theorem length_handles_closeStep (r : Registry) (id : Nat) (stage : Closing) :
    (r.closeStep id stage).1.handles.length = r.handles.length := by
  rcases r.closeStep_cases id stage with hr | ⟨change, _, hr⟩ | hr <;> rw [hr]
  exact length_handles_update ..

/-- A session stays in its final state, whatever is attempted on whichever session. -/
theorem any_closeStep {other : Nat} {stage : Closing}
    (h : (r.handle? id).any (·.state = .closed)) :
    ((r.closeStep other stage).1.handle? id).any (·.state = .closed) := by
  rcases r.closeStep_cases other stage with hr | ⟨change, hchange, hr⟩ | hr <;> rw [hr]
  · exact h
  · refine any_update (fun found hstate => ?_) h
    exact decide_eq_true (hchange found (of_decide_eq_true hstate))
  · exact h

end Registry

namespace SharedRegistry

open Registry (Closing)

variable {s : SharedRegistry} {r : Registry} {id : Nat}

/-! ## What the calls tell -/

/-- The ids that have been taken. -/
def numbered (s : SharedRegistry) : List Nat := s.calls.filterMap Call.id?

/-- All attempts to close a session. -/
def attempts (s : SharedRegistry) : List Attempt := s.calls.flatMap Call.attempts

/-- The sessions that attempts in a row report to have closed. -/
def wins (attempts : List Attempt) : List Nat := (attempts.filter Attempt.hasWon).map Attempt.id

/-- The sessions that any attempt of any call reports to have closed. -/
def won (s : SharedRegistry) : List Nat := wins s.attempts

/-- Whether the flag of a session is up. -/
def isClosed (s : SharedRegistry) (id : Nat) : Bool := (s.registry.handle? id).any (·.isClosed)

/-- The sessions that have been created and closed. -/
def closed (s : SharedRegistry) : List Nat := s.created.filter s.isClosed

/-- No attempt to close a session is under way: none has done anything, or it has returned. -/
def IsQuiet (s : SharedRegistry) : Prop := ∀ a ∈ s.attempts, a.stage = .started ∨ a.isOver

/-- The number of calls that have returned that they closed their session. -/
def trueCloses (s : SharedRegistry) : Nat := s.calls.countP Call.isTrueClose

/-- The numbers that calls to close all sessions have returned. -/
def counts (s : SharedRegistry) : List Nat := s.calls.filterMap Call.count?

theorem attempt_mem_marks_iff {stage : Closing} :
    .attempt stage ∈ s.marks id ↔ ⟨id, stage⟩ ∈ s.attempts := by
  have hone : ∀ a : Attempt,
      .attempt stage ∈ (Mark.attempt a.stage).of a.id id ↔ ⟨id, stage⟩ = a := by
    rintro ⟨other, stage'⟩
    rw [Mark.mem_of_iff, Mark.attempt.injEq, Attempt.mk.injEq, eq_comm]
  simp only [marks, attempts, List.mem_flatMap]
  refine exists_congr fun c => and_congr_right fun _ => ?_
  cases c <;> simp [Call.marks, Call.attempts, hone, Mark.mem_of_iff]

theorem Call.count_created (c : Call) (id : Nat) :
    c.created?.toList.count id = (c.marks id).count .created := by
  cases c with
  | created other =>
    by_cases hid : other = id <;> simp [created?, marks, Mark.of, hid]
  | _ =>
    refine Eq.symm (List.count_eq_zero.2 ?_)
    simp [marks, Mark.mem_of_iff]

theorem Call.count_id (c : Call) (id : Nat) :
    c.id?.toList.count id = (c.marks id).count .numbered + (c.marks id).count .created := by
  rw [← c.count_created]
  cases c with
  | numbered other =>
    by_cases hid : other = id <;> simp [id?, created?, marks, Mark.of, hid]
  | created other =>
    have hnone : (Mark.created.of other id).count .numbered = 0 :=
      List.count_eq_zero.2 (by simp [Mark.mem_of_iff])
    rw [marks, hnone, Nat.zero_add]
    rfl
  | _ =>
    refine Eq.symm (List.count_eq_zero.2 ?_)
    simp [marks, Mark.mem_of_iff]

theorem Attempt.hasWon_mark (a : Attempt) : (Mark.attempt a.stage).hasWon = a.hasWon := by
  obtain ⟨other, stage⟩ := a
  cases stage with
  | finished won => cases won <;> rfl
  | _ => rfl

theorem count_wins (attempts : List Attempt) (id : Nat) :
    (wins attempts).count id =
      (attempts.flatMap fun a => (Mark.attempt a.stage).of a.id id).countP Mark.hasWon := by
  induction attempts with
  | nil => rfl
  | cons a rest ih =>
    rw [List.flatMap_cons, List.countP_append, ← ih]
    by_cases hid : a.id = id <;> by_cases hwon : a.hasWon <;>
      simp [wins, Mark.of, Attempt.hasWon_mark, hid, hwon, Nat.add_comm]

theorem Call.count_won (c : Call) (id : Nat) :
    (wins c.attempts).count id = (c.marks id).countP Mark.hasWon := by
  rw [count_wins]
  cases c with
  | close a => rw [attempts, List.flatMap_singleton, marks]
  | sweep attempts => rfl
  | _ =>
    refine Eq.symm (List.countP_eq_zero.2 ?_)
    simp [marks, Mark.mem_of_iff, Mark.hasWon]

theorem count_created (s : SharedRegistry) (id : Nat) :
    s.created.count id = (s.marks id).count .created := by
  rw [created, marks, List.filterMap_eq_flatMap_toList, List.count_flatMap, List.count_flatMap]
  congr 2
  funext c
  exact c.count_created id

theorem count_numbered (s : SharedRegistry) (id : Nat) :
    s.numbered.count id = (s.marks id).count .numbered + (s.marks id).count .created := by
  rw [numbered, marks, List.filterMap_eq_flatMap_toList, List.count_flatMap, List.count_flatMap,
    List.count_flatMap, ← List.sum_map_add]
  congr 2
  funext c
  exact c.count_id id

/-- What all attempts have closed is what those of each call have. -/
theorem won_eq (s : SharedRegistry) : s.won = s.calls.flatMap fun c => wins c.attempts := by
  simp only [won, wins, attempts, List.filter_flatMap, List.map_flatMap]

theorem count_won (s : SharedRegistry) (id : Nat) :
    s.won.count id = (s.marks id).countP Mark.hasWon := by
  rw [won_eq, marks, List.count_flatMap, List.countP_flatMap]
  congr 2
  funext c
  exact c.count_won id

/-! ## One state -/

theorem IsSound.numbered_nodup (h : s.IsSound) : s.numbered.Nodup := by
  refine List.nodup_iff_count_le_one.2 fun id => ?_
  rw [count_numbered, (h id).placed]
  split <;> simp

theorem IsSound.won_nodup (h : s.IsSound) : s.won.Nodup := by
  refine List.nodup_iff_count_le_one.2 fun id => ?_
  have howned := (h id).owned
  rw [count_won]
  split at howned <;> omega

theorem mem_wins_iff {attempts : List Attempt} :
    id ∈ wins attempts ↔ ⟨id, .finished true⟩ ∈ attempts := by
  simp only [wins, List.mem_map, List.mem_filter, Attempt.hasWon, decide_eq_true_eq]
  constructor
  · rintro ⟨⟨other, stage⟩, ⟨hmem, rfl⟩, rfl⟩
    exact hmem
  · intro hmem
    exact ⟨_, ⟨hmem, rfl⟩, rfl⟩

theorem wins_sublist_won {c : Call} (hc : c ∈ s.calls) : (wins c.attempts).Sublist s.won := by
  rw [won_eq]
  exact List.sublist_flatten_of_mem (List.mem_map_of_mem hc)

/-- While no attempt is under way, none is midway. -/
theorem IsQuiet.countP_isMidway (h : s.IsQuiet) (id : Nat) :
    (s.marks id).countP Mark.isMidway = 0 := by
  refine List.countP_eq_zero.2 fun m hm hmid => ?_
  cases m with
  | attempt stage =>
    have hattempt := h _ (attempt_mem_marks_iff.1 hm)
    cases stage <;> simp_all [Mark.isMidway, Attempt.isOver]
  | _ => cases hmid

theorem IsSound.mem_won (h : s.IsSound) (hquiet : s.IsQuiet) {a : Attempt} (ha : a ∈ s.attempts)
    (hover : a.isOver) : a.id ∈ s.won := by
  obtain ⟨other, stage⟩ := a
  match stage, hover with
  | .finished true, _ => exact mem_wins_iff.2 ha
  | .finished false, _ =>
    have hclosed := (h other).lost (attempt_mem_marks_iff.2 ha)
    have howned := (h other).owned
    rw [hquiet.countP_isMidway, if_pos hclosed, ← count_won] at howned
    have hpos : 0 < s.won.count other := by omega
    exact List.count_pos_iff.1 hpos

/-- The sessions that are registered and those that attempts have closed are those that were
created. -/
theorem IsSound.perm_created (h : s.IsSound) : (s.registry.live ++ s.won).Perm s.created := by
  refine List.perm_iff_count.2 fun id => ?_
  rw [List.count_append, count_won, count_created]
  exact (h id).listed

theorem IsSound.created_nodup (h : s.IsSound) : s.created.Nodup := by
  refine List.nodup_iff_count_le_one.2 fun id => ?_
  have hplaced := (h id).placed
  rw [count_created]
  split at hplaced <;> omega

/-- While no attempt is under way, the sessions that are closed are those that attempts have
closed. -/
theorem IsSound.perm_won (h : s.IsSound) (hquiet : s.IsQuiet) : s.closed.Perm s.won := by
  refine List.perm_iff_count.2 fun id => ?_
  have howned := (h id).owned
  have hlisted := (h id).listed
  have hone := List.nodup_iff_count_le_one.1 h.created_nodup id
  rw [hquiet.countP_isMidway, ← count_won, Nat.zero_add] at howned
  rw [← count_won, ← count_created] at hlisted
  change s.won.count id = if s.isClosed id then 1 else 0 at howned
  rw [closed]
  by_cases hclosed : s.isClosed id
  · rw [List.count_filter hclosed]
    rw [if_pos hclosed] at howned
    omega
  · rw [if_neg hclosed] at howned
    rw [List.count_eq_zero.2 fun hmem => hclosed (List.mem_filter.1 hmem).2]
    omega

theorem IsSound.isSome_get?_iff (h : s.IsSound) (hquiet : s.IsQuiet) (id : Nat) :
    (s.registry.get? id).isSome ↔ id ∈ s.created ∧ id ∉ s.closed := by
  have hlive : id ∈ s.registry.live ↔ id ∈ s.created ∧ id ∉ s.closed := by
    have hone := List.nodup_iff_count_le_one.1 h.created_nodup id
    rw [← h.perm_created.count_eq, List.count_append] at hone
    rw [(h.perm_won hquiet).mem_iff, ← h.perm_created.mem_iff, List.mem_append,
      ← List.count_pos_iff, ← List.count_pos_iff]
    omega
  rw [← hlive, Registry.get?]
  by_cases hmem : id ∈ s.registry.live
  · obtain ⟨found, hfound⟩ := (h id).exists_handle (created_mem_marks_iff.2 (hlive.1 hmem).1)
    simp [hmem, hfound]
  · simp [hmem]

theorem IsSound.size_eq (h : s.IsSound) (hquiet : s.IsQuiet) :
    s.registry.size = s.created.length - s.closed.length := by
  have hcreated := h.perm_created.length_eq
  rw [List.length_append, ← (h.perm_won hquiet).length_eq] at hcreated
  rw [Registry.size]
  omega

/-- When every call has returned, what the calls have returned adds up to the number of attempts
that have closed a session. -/
theorem add_sum_counts (calls : List Call) (hover : ∀ c ∈ calls, c.isOver) :
    calls.countP Call.isTrueClose + (calls.filterMap Call.count?).sum =
      (calls.flatMap Call.attempts).countP Attempt.hasWon := by
  induction calls with
  | nil => rfl
  | cons c calls ih =>
    have hrest := ih fun c hc => hover c (List.mem_cons_of_mem _ hc)
    have hfirst := hover c (List.mem_cons_self ..)
    rw [List.flatMap_cons, List.countP_append, ← hrest, List.countP_cons, List.filterMap_cons]
    cases c with
    | close a =>
      by_cases hwon : a.hasWon <;>
        simp [Call.isTrueClose, Call.count?, Call.attempts, hwon, Nat.add_assoc, Nat.add_comm 1]
    | look seen => cases hfirst
    | sweep attempts =>
      simp only [Call.count?_sweep_eq_some_iff.2 ⟨hfirst, rfl⟩, Call.isTrueClose, Call.attempts,
        List.sum_cons]
      simp only [Bool.false_eq_true, ↓reduceIte]
      omega
    | _ => simp [Call.isTrueClose, Call.count?, Call.attempts]

theorem IsSound.any_of_mem_won (h : s.IsSound) (hwon : id ∈ s.won) :
    (s.registry.handle? id).any (·.state = .closed) :=
  (h id).settled _ (attempt_mem_marks_iff.2 (mem_wins_iff.1 hwon)) rfl

theorem state_eq_of_any (h : (s.registry.handle? id).any (·.state = .closed)) :
    (s.registry.handle? id).map (·.state) = some .closed := by
  cases hhandle : s.registry.handle? id with
  | none => simp [hhandle] at h
  | some found => simpa [hhandle] using h

/-- When every call has returned, no attempt is under way. -/
theorem isQuiet_of_isOver (hover : ∀ c ∈ s.calls, c.isOver) : s.IsQuiet := by
  intro a ha
  obtain ⟨c, hc, hmem⟩ := List.mem_flatMap.1 ha
  have hreturned := hover c hc
  cases c with
  | close other =>
    obtain rfl := List.mem_singleton.1 hmem
    exact .inr hreturned
  | sweep attempts => exact .inr (List.all_eq_true.1 hreturned a hmem)
  | _ => cases hmem

/-- Every id that has been taken is that of a handle. -/
theorem IsSound.le_length (h : s.IsSound) (hid : id ∈ s.numbered) :
    id ≤ s.registry.handles.length := by
  have hcount := List.count_pos_iff.2 hid
  rw [count_numbered, (h id).placed] at hcount
  refine Registry.le_length_of_isSome ?_
  by_contra hnone
  rw [if_neg hnone] at hcount
  omega

theorem toNat_word {n : Nat} (h : n < 2 ^ 64) : (UInt64.ofNat n).toNat = n := by
  rw [UInt64.toNat_ofNat']
  omega

/-- The ids are still distinct as machine words. -/
theorem IsSound.words_nodup (h : s.IsSound) (hfew : s.registry.handles.length < 2 ^ 64 - 1) :
    (s.numbered.map UInt64.ofNat).Nodup := by
  refine h.numbered_nodup.map_on fun a ha b hb heq => ?_
  have hale := h.le_length ha
  have hble := h.le_length hb
  have hwords := congrArg UInt64.toNat heq
  rwa [toNat_word (by omega), toNat_word (by omega)] at hwords

/-! ## From one state to the next -/

/-- The id that a call has taken. -/
def idOf? (s : SharedRegistry) (i : Nat) : Option Nat := s.calls[i]?.bind Call.id?

theorem mem_numbered_of_idOf? {i : Nat} (h : s.idOf? i = some id) : id ∈ s.numbered := by
  obtain ⟨c, hcall, hid⟩ := Option.bind_eq_some_iff.1 h
  exact List.mem_filterMap.2 ⟨c, List.mem_of_getElem? hcall, hid⟩

theorem length_handles_sweepStep (r : Registry) (attempts : List Attempt) :
    (sweepStep r attempts).1.handles.length = r.handles.length := by
  rcases sweepStep_cases r attempts with ⟨_, hstep⟩ | ⟨front, a, rest, _, _, hstep⟩ <;> rw [hstep]
  exact Registry.length_handles_closeStep ..

/-- A step of a call keeps its id, or takes the next one. -/
theorem Call.id?_step (r : Registry) (c : Call) :
    (c.step r).2.id? = c.id? ∧ (c.step r).1.handles.length = r.handles.length ∨
      c.id? = none ∧ (c.step r).2.id? = some (r.handles.length + 1) ∧
        (c.step r).1.handles.length = r.handles.length + 1 := by
  cases c with
  | create peer localAddr => exact .inr ⟨rfl, rfl, by simp [step, Registry.number]⟩
  | close a => exact .inl ⟨rfl, Registry.length_handles_closeStep ..⟩
  | sweep attempts => exact .inl ⟨rfl, length_handles_sweepStep ..⟩
  | _ => exact .inl ⟨rfl, rfl⟩

theorem idOf?_begin {c : Call} (hc : c.id? = none) (i : Nat) : (s.begin c).idOf? i = s.idOf? i := by
  rcases Nat.lt_trichotomy i s.calls.length with hlt | rfl | hgt
  · simp [idOf?, SharedRegistry.begin, List.getElem?_append_left hlt]
  · simp [idOf?, SharedRegistry.begin, hc]
  · have hnone : (s.begin c).calls[i]? = none :=
      List.getElem?_eq_none (by simp [SharedRegistry.begin]; omega)
    rw [idOf?, idOf?, hnone, List.getElem?_eq_none (by omega)]

theorem idOf?_put {j : Nat} {c : Call} (h : s.calls[j]? = some c) (c' : Call) (i : Nat) :
    (s.put j c').idOf? i = if i = j then c'.id? else s.idOf? i := by
  obtain ⟨hlt, _⟩ := List.getElem?_eq_some_iff.1 h
  by_cases hi : i = j
  · subst hi
    simp [idOf?, put, hlt]
  · simp [idOf?, put, List.getElem?_set_ne (Ne.symm hi), hi]

/-- A move keeps the id of every call, or one call takes the next id. -/
theorem idOf?_move (s : SharedRegistry) (m : Move) (i : Nat) :
    s.registry.handles.length ≤ (s.move m).registry.handles.length ∧
      ((s.move m).idOf? i = s.idOf? i ∨
        s.idOf? i = none ∧ (s.move m).idOf? i = some (s.registry.handles.length + 1) ∧
          (s.move m).registry.handles.length = s.registry.handles.length + 1) := by
  have hmoved := s.moved_move m
  generalize s.move m = s' at hmoved
  cases hmoved with
  | creating => exact ⟨Nat.le_refl _, .inl (idOf?_begin rfl i)⟩
  | closing => exact ⟨Nat.le_refl _, .inl (idOf?_begin rfl i)⟩
  | sweeping => exact ⟨Nat.le_refl _, .inl (idOf?_begin rfl i)⟩
  | entered => exact ⟨Nat.le_of_eq (Registry.length_handles_update ..).symm, .inl rfl⟩
  | @looked j ids seen hcall =>
    refine ⟨Nat.le_refl _, .inl ?_⟩
    rw [idOf?_put hcall]
    split
    next hi =>
      subst hi
      rw [idOf?, hcall]
      rfl
    · rfl
  | @stepped j c hcall =>
    have hput := idOf?_put hcall (c.step s.registry).2 i
    have hself : i = j → s.idOf? i = c.id? := by
      rintro rfl
      rw [idOf?, hcall]
      rfl
    change _ ∧ ((s.put j (c.step s.registry).2).idOf? i = _ ∨ _ ∧
      (s.put j (c.step s.registry).2).idOf? i = _ ∧ _)
    rw [hput]
    rcases c.id?_step s.registry with ⟨hid, hlen⟩ | ⟨hnone, hid, hlen⟩
    · refine ⟨Nat.le_of_eq hlen.symm, .inl ?_⟩
      split
      next hi => rw [hid, hself hi]
      · rfl
    · refine ⟨by simp only [hlen]; omega, ?_⟩
      split
      next hi => exact .inr ⟨(hself hi).trans hnone, hid, hlen⟩
      · exact .inl rfl
  | idle => exact ⟨Nat.le_refl _, .inl rfl⟩

/-- A call keeps its id, and one that takes its id later takes one that is greater. -/
theorem idOf?_after (s : SharedRegistry) (moves : List Move) (i : Nat) :
    s.registry.handles.length ≤ (s.after moves).registry.handles.length ∧
      ((s.after moves).idOf? i = s.idOf? i ∨
        s.idOf? i = none ∧ ∃ b, (s.after moves).idOf? i = some b ∧
          s.registry.handles.length < b ∧ b ≤ (s.after moves).registry.handles.length) := by
  induction moves generalizing s with
  | nil => exact ⟨Nat.le_refl _, .inl rfl⟩
  | cons m moves ih =>
    obtain ⟨hle, hone⟩ := idOf?_move s m i
    obtain ⟨hle', hrest⟩ := ih (s.move m)
    rw [after_cons]
    refine ⟨Nat.le_trans hle hle', ?_⟩
    rcases hone with hsame | ⟨hnone, htaken, hlen⟩
    · rcases hrest with hrest | ⟨hnone, b, hb, hlt, hbound⟩
      · exact .inl (hrest.trans hsame)
      · exact .inr ⟨hsame.symm.trans hnone, b, hb, by omega, hbound⟩
    · rcases hrest with hrest | ⟨hnone', _⟩
      · exact .inr ⟨hnone, _, hrest.trans htaken, by omega, by omega⟩
      · rw [htaken] at hnone'
        cases hnone'

/-! ## What stays -/

theorem any_sweepStep {attempts : List Attempt} (h : (r.handle? id).any (·.state = .closed)) :
    ((sweepStep r attempts).1.handle? id).any (·.state = .closed) := by
  rcases sweepStep_cases r attempts with ⟨_, hstep⟩ | ⟨front, a, rest, _, _, hstep⟩ <;> rw [hstep]
  · exact h
  · exact Registry.any_closeStep h

theorem Call.any_step {c : Call} (h : (r.handle? id).any (·.state = .closed)) :
    ((c.step r).1.handle? id).any (·.state = .closed) := by
  cases c with
  | create peer localAddr =>
    rw [step, Registry.handle?_number]
    split
    next hid =>
      subst hid
      rw [Registry.handle?_succ_length] at h
      cases h
    · exact h
  | close a => exact Registry.any_closeStep h
  | sweep attempts => exact any_sweepStep h
  | _ => exact h

theorem any_move (h : (s.registry.handle? id).any (·.state = .closed)) (m : Move) :
    ((s.move m).registry.handle? id).any (·.state = .closed) := by
  have hmoved := s.moved_move m
  generalize s.move m = s' at hmoved
  cases hmoved with
  | entered =>
    refine Registry.any_update (fun found hstate => ?_) h
    have hclosed : found.state = .closed := of_decide_eq_true hstate
    simp [Handle.enter, hclosed]
  | stepped => exact Call.any_step h
  | _ => exact h

theorem any_after (h : (s.registry.handle? id).any (·.state = .closed)) (moves : List Move) :
    ((s.after moves).registry.handle? id).any (·.state = .closed) := by
  induction moves generalizing s with
  | nil => exact h
  | cons m moves ih => exact ih (any_move h m)

/-! ## Calls return -/

/-- The steps that an attempt may still have to take. -/
def Attempt.left (a : Attempt) : Nat :=
  match a.stage with
  | .started => 4
  | .flagged => 3
  | .settled => 2
  | .signalled => 1
  | .finished _ => 0

/-- The steps that a call may still have to take to close sessions. -/
def Call.left (c : Call) : Nat := (c.attempts.map Attempt.left).sum

theorem Attempt.left_eq_zero_iff {a : Attempt} : a.left = 0 ↔ a.isOver := by
  obtain ⟨other, stage⟩ := a
  cases stage <;> simp [left, isOver]

theorem Attempt.left_step (r : Registry) (a : Attempt) : (a.step r).2.left ≤ a.left - 1 := by
  obtain ⟨other, stage⟩ := a
  cases stage with
  | started =>
    simp only [step, Registry.closeStep]
    split
    · simp [left]
    · split <;> simp [left]
  | _ => simp [step, Registry.closeStep, left]

theorem sweepStep_spec (r : Registry) (attempts : List Attempt) :
    (sweepStep r attempts).2.map Attempt.id = attempts.map Attempt.id ∧
      ((sweepStep r attempts).2.map Attempt.left).sum ≤ (attempts.map Attempt.left).sum - 1 := by
  rcases sweepStep_cases r attempts with ⟨hall, hstep⟩ | ⟨front, a, rest, rfl, hover, hstep⟩ <;>
    rw [hstep]
  · have hzero : (attempts.map Attempt.left).sum = 0 := by
      refine List.sum_eq_zero fun left hleft => ?_
      obtain ⟨a, ha, rfl⟩ := List.mem_map.1 hleft
      exact Attempt.left_eq_zero_iff.2 (List.all_eq_true.1 hall a ha)
    rw [hzero]
    exact ⟨rfl, Nat.le_refl _⟩
  · have hpos : a.left ≠ 0 := fun hzero => hover (Attempt.left_eq_zero_iff.1 hzero)
    have hstep := a.left_step r
    simp only [List.map_append, List.map_cons, List.sum_append, List.sum_cons]
    exact ⟨rfl, by omega⟩

/-- A step of a call keeps the sessions that it attempts to close, and brings it forward. -/
theorem Call.step_spec (r : Registry) {c : Call} (h : c.attempts ≠ []) :
    (c.step r).2.attempts.map Attempt.id = c.attempts.map Attempt.id ∧
      (c.step r).2.left ≤ c.left - 1 := by
  cases c with
  | close a =>
    have hstep := a.left_step r
    exact ⟨rfl, by simpa [left, step, attempts] using hstep⟩
  | sweep attempts => exact sweepStep_spec r attempts
  | _ => exact absurd rfl h

/-- A move keeps what a call attempts to close, and brings the call forward if it is a step of
it. -/
theorem exists_call_move {i : Nat} {c : Call} (h : s.calls[i]? = some c) (hc : c.attempts ≠ [])
    (m : Move) :
    ∃ c', (s.move m).calls[i]? = some c' ∧ c'.attempts.map Attempt.id = c.attempts.map Attempt.id ∧
      c'.left ≤ c.left - if m = .step i then 1 else 0 := by
  obtain ⟨hlt, _⟩ := List.getElem?_eq_some_iff.1 h
  have hbegin : ∀ other, (s.begin other).calls[i]? = some c := by
    intro other
    rw [SharedRegistry.begin, List.getElem?_append_left hlt, h]
  have hput : ∀ j other, j ≠ i → (s.put j other).calls[i]? = some c := by
    intro j other hj
    rw [put, List.getElem?_set_ne hj, h]
  have hmoved := s.moved_move m
  generalize s.move m = s' at hmoved
  cases hmoved with
  | creating => exact ⟨c, hbegin _, rfl, Nat.le_refl _⟩
  | closing => exact ⟨c, hbegin _, rfl, Nat.le_refl _⟩
  | sweeping => exact ⟨c, hbegin _, rfl, Nat.le_refl _⟩
  | entered => exact ⟨c, h, rfl, Nat.le_refl _⟩
  | @looked j ids seen hcall =>
    refine ⟨c, hput j _ ?_, rfl, Nat.le_refl _⟩
    rintro rfl
    rw [h] at hcall
    cases hcall
    exact hc rfl
  | @stepped j c' hcall =>
    by_cases hj : j = i
    · subst hj
      rw [h] at hcall
      cases hcall
      obtain ⟨hids, hleft⟩ := Call.step_spec s.registry hc
      exact ⟨_, List.getElem?_set_self hlt, hids, by rwa [if_pos rfl]⟩
    · exact ⟨c, hput j _ hj, rfl, by simp [hj]⟩
  | idle hidle =>
    refine ⟨c, h, rfl, ?_⟩
    rw [if_neg fun hm => hidle i c hm h]
    exact Nat.le_refl _

theorem exists_call_after {i : Nat} {c : Call} (h : s.calls[i]? = some c) (hc : c.attempts ≠ [])
    (moves : List Move) :
    ∃ c', (s.after moves).calls[i]? = some c' ∧
      c'.attempts.map Attempt.id = c.attempts.map Attempt.id ∧
      c'.left ≤ c.left - moves.count (.step i) := by
  induction moves generalizing s c with
  | nil => exact ⟨c, h, rfl, Nat.le_refl _⟩
  | cons m moves ih =>
    obtain ⟨c', h', hids, hleft⟩ := exists_call_move h hc m
    have hc' : c'.attempts ≠ [] := by
      intro hnil
      rw [hnil] at hids
      exact hc (List.map_eq_nil_iff.1 hids.symm)
    obtain ⟨c'', h'', hids', hleft'⟩ := ih h' hc'
    refine ⟨c'', h'', hids'.trans hids, ?_⟩
    rw [List.count_cons]
    simp only [beq_iff_eq]
    omega

theorem Call.left_le (c : Call) : c.left ≤ 4 * c.attempts.length := by
  rw [left]
  induction c.attempts with
  | nil => exact Nat.le_refl _
  | cons a rest ih =>
    have hfour : a.left ≤ 4 := by
      unfold Attempt.left
      split <;> omega
    rw [List.map_cons, List.sum_cons, List.length_cons]
    omega

/-- An attempt returns when its call has taken four steps for each of its attempts, whatever comes
in between. -/
theorem exists_finished {i : Nat} {c : Call} {a : Attempt} (h : s.calls[i]? = some c)
    (ha : a ∈ c.attempts) {moves : List Move}
    (hsteps : 4 * c.attempts.length ≤ moves.count (.step i)) :
    ∃ c' won, (s.after moves).calls[i]? = some c' ∧ ⟨a.id, .finished won⟩ ∈ c'.attempts := by
  obtain ⟨c', h', hids, hleft⟩ := exists_call_after h (List.ne_nil_of_mem ha) moves
  have hzero : (c'.attempts.map Attempt.left).sum = 0 := by
    have hle := c.left_le
    change c'.left = 0
    omega
  have hid : a.id ∈ c'.attempts.map Attempt.id := hids ▸ List.mem_map_of_mem ha
  obtain ⟨a', ha', hsame⟩ := List.mem_map.1 hid
  have hover := Attempt.left_eq_zero_iff.1
    (List.sum_eq_zero_iff_forall_eq_nat.1 hzero _ (List.mem_map_of_mem ha'))
  obtain ⟨other, stage⟩ := a'
  match stage, hover with
  | .finished won, _ => exact ⟨c', won, h', hsame ▸ ha'⟩

/-! ## Integrity -/

/-- What holds of a shared registry at any time. -/
structure Integrity (s : SharedRegistry) : Prop where
  /-- No id is taken twice. -/
  numbered_nodup : s.numbered.Nodup
  /-- Nor is it when ids are machine words, unless there are too many sessions for that. -/
  words_nodup : s.registry.handles.length < 2 ^ 64 - 1 → (s.numbered.map UInt64.ofNat).Nodup
  /-- No two attempts close the same session. -/
  won_nodup : s.won.Nodup
  /-- When attempts to close a session have returned, one of them has closed it. -/
  mem_won : s.IsQuiet → ∀ a ∈ s.attempts, a.isOver → a.id ∈ s.won
  /-- The sessions in the table are those that were created and not closed. -/
  live_perm : s.IsQuiet → s.registry.live.Perm (s.created.filter fun id => !s.isClosed id)
  /-- A session is found if it was created and not closed. -/
  isSome_get?_iff : s.IsQuiet → ∀ id,
    (s.registry.get? id).isSome ↔ id ∈ s.created ∧ id ∉ s.closed
  /-- There are as many as were created and not closed. -/
  size_eq : s.IsQuiet → s.registry.size = s.created.length - s.closed.length
  /-- A call to close all sessions returns the number of those that its own attempts closed. -/
  count_eq : ∀ c ∈ s.calls, ∀ n, c.count? = some n →
    ∃ ids : List Nat, ids.Nodup ∧ ids.length = n ∧
      ∀ id, id ∈ ids ↔ ⟨id, .finished true⟩ ∈ c.attempts
  /-- When all calls have returned, what they have returned adds up to the closed sessions. -/
  total_eq : (∀ c ∈ s.calls, c.isOver) → s.trueCloses + s.counts.sum = s.closed.length
  /-- A session that an attempt has closed is in its final state. -/
  state_eq : ∀ id ∈ s.won, (s.registry.handle? id).map (·.state) = some .closed

/-- What holds of a shared registry and what becomes of it. -/
structure Continues (s s' : SharedRegistry) (moves : List Move) : Prop where
  /-- A call keeps the id that it has taken. -/
  idOf?_eq : ∀ i a, s.idOf? i = some a → s'.idOf? i = some a
  /-- An id that is taken later is greater. -/
  lt_of_later : ∀ i j a b, s.idOf? i = some a → s.idOf? j = none → s'.idOf? j = some b → a < b
  /-- So it is when ids are machine words, unless there are too many sessions for that. -/
  word_lt_of_later : s'.registry.handles.length < 2 ^ 64 - 1 →
    ∀ i j a b, s.idOf? i = some a → s.idOf? j = none → s'.idOf? j = some b →
      UInt64.ofNat a < UInt64.ofNat b
  /-- A session that has been closed stays in its final state. -/
  state_eq : ∀ id ∈ s.won, (s'.registry.handle? id).map (·.state) = some .closed
  /-- An attempt returns when its call has taken four steps for each of its attempts. -/
  exists_finished : ∀ i c, s.calls[i]? = some c → ∀ a ∈ c.attempts,
    4 * c.attempts.length ≤ moves.count (.step i) →
      ∃ c' won, s'.calls[i]? = some c' ∧ ⟨a.id, .finished won⟩ ∈ c'.attempts

/-- A call returns how many sessions its own attempts closed. -/
theorem IsSound.count_eq (h : s.IsSound) {c : Call} (hc : c ∈ s.calls) {n : Nat}
    (hcount : c.count? = some n) :
    ∃ ids : List Nat, ids.Nodup ∧ ids.length = n ∧
      ∀ id, id ∈ ids ↔ ⟨id, .finished true⟩ ∈ c.attempts := by
  cases c with
  | sweep attempts =>
    refine ⟨wins attempts, ?_, ?_, fun id => mem_wins_iff⟩
    · exact h.won_nodup.sublist (wins_sublist_won hc)
    · rw [wins, List.length_map, ← List.countP_eq_length_filter]
      exact (Call.count?_sweep_eq_some_iff.1 hcount).2
  | _ => cases hcount

/-- While no attempt is under way, the sessions in the table are those that are not closed. -/
theorem IsSound.live_perm (h : s.IsSound) (hquiet : s.IsQuiet) :
    s.registry.live.Perm (s.created.filter fun id => !s.isClosed id) := by
  have hopen : (s.registry.live ++ s.closed).Perm
      ((s.created.filter fun id => !s.isClosed id) ++ s.closed) :=
    ((h.perm_won hquiet).append_left _).trans <| h.perm_created.trans <|
      (List.filter_append_perm s.isClosed s.created).symm.trans List.perm_append_comm
  exact (List.perm_append_right_iff _).1 hopen

theorem IsSound.integrity (h : s.IsSound) : s.Integrity where
  numbered_nodup := h.numbered_nodup
  words_nodup := h.words_nodup
  won_nodup := h.won_nodup
  mem_won hquiet _ ha hover := h.mem_won hquiet ha hover
  live_perm := h.live_perm
  isSome_get?_iff := h.isSome_get?_iff
  size_eq := h.size_eq
  count_eq _ hc _ hcount := h.count_eq hc hcount
  total_eq hover := by
    rw [trueCloses, counts, add_sum_counts _ hover,
      (h.perm_won (isQuiet_of_isOver hover)).length_eq, won, wins, List.length_map,
      List.countP_eq_length_filter]
    rfl
  state_eq _ hwon := state_eq_of_any (h.any_of_mem_won hwon)

theorem IsSound.continues (h : s.IsSound) (moves : List Move) :
    s.Continues (s.after moves) moves := by
  have hkept : ∀ i a, s.idOf? i = some a → (s.after moves).idOf? i = some a := by
    intro i a ha
    rcases (idOf?_after s moves i).2 with hsame | ⟨hnone, _⟩
    · rw [hsame, ha]
    · rw [ha] at hnone
      cases hnone
  have hlater : ∀ i j a b, s.idOf? i = some a → s.idOf? j = none →
      (s.after moves).idOf? j = some b →
        a < b ∧ b ≤ (s.after moves).registry.handles.length := by
    intro i j a b ha hnone hb
    have hle := h.le_length (mem_numbered_of_idOf? ha)
    rcases (idOf?_after s moves j).2 with hsame | ⟨_, b', hb', hlt, hbound⟩
    · rw [hsame, hnone] at hb
      cases hb
    · rw [hb] at hb'
      cases hb'
      exact ⟨by omega, hbound⟩
  refine ⟨hkept, fun i j a b ha hnone hb => (hlater i j a b ha hnone hb).1, ?_, ?_, ?_⟩
  · intro hfew i j a b ha hnone hb
    obtain ⟨hlt, hbound⟩ := hlater i j a b ha hnone hb
    rwa [UInt64.lt_iff_toNat_lt, toNat_word (by omega), toNat_word (by omega)]
  · intro id hwon
    exact state_eq_of_any (any_after (h.any_of_mem_won hwon) moves)
  · exact fun i c hcall a ha hsteps => exists_finished hcall ha hsteps

/-- The books of a registry are in order at any time, whatever its callers do. -/
theorem integrity_after (moves more : List Move) :
    let s := SharedRegistry.after {} moves
    s.Integrity ∧ s.Continues (s.after more) more := by
  have hsound := isSound_after moves isSound_new
  exact ⟨hsound.integrity, hsound.continues more⟩

/-- Two sessions are created. Two calls close the first while a third closes all and the session
moves on. -/
def race : List Move :=
  let address : SocketAddr := ⟨.v4 .localhost, 1080, 0⟩
  [.create address address, .create address address, .step 1, .step 0, .step 0, .step 1,
    .close 1, .closeAll, .close 1, .look 3 [1], .step 2, .look 3 [2], .step 4, .enter 1 .relaying,
    .step 3, .step 2, .enter 1 .connecting, .step 3, .step 2, .step 3, .step 3, .step 3, .step 2,
    .step 3]

theorem integrity_after_race :
    let s := SharedRegistry.after {} race
    (∀ c ∈ s.calls, c.isOver) ∧ s.trueCloses + s.counts.sum = 2 ∧ s.registry.size = 0 ∧
      ∀ more, ((s.after more).registry.handle? 1).map (·.state) = some .closed := by
  have hover : ∀ c ∈ (SharedRegistry.after {} race).calls, c.isOver := by decide
  refine ⟨hover, ?_, ?_, fun more => ?_⟩
  · exact (integrity_after race []).1.total_eq hover
  · exact (integrity_after race []).1.size_eq (isQuiet_of_isOver hover)
  · exact (integrity_after race more).2.state_eq 1 (by decide)

end SharedRegistry

end Socks5
