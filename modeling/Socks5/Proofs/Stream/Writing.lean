import Socks5.Proofs.Stream.Reading

/-!
# Writing messages to a stream

A message is written as a whole: what the stream has taken at any time is the front of its bytes,
and only when all of them have been taken is the stream flushed, once. Main statements: how far a
message has come after a dialogue (`leads_send`), and that a stream which takes everything lets it
come to its end (`exists_leads_send`).
-/

namespace Socks5.Stream

open Socks5.Task (Leads leads_done_iff leads_fail_iff leads_ask_iff leads_bind_iff)

/-! ## What is taken -/

/-- The bytes that an exchange takes. -/
def takenIn : Exchange Streams → Bytes
  | ⟨.write bytes, .ok count⟩ => bytes.take count.val
  | _ => []

/-- The bytes that a dialogue takes. -/
def taken (d : Dialogue Streams) : Bytes := d.flatMap takenIn

@[simp] theorem taken_nil : taken [] = [] := rfl

@[simp] theorem taken_append (d d' : Dialogue Streams) : taken (d ++ d') = taken d ++ taken d' :=
  List.flatMap_append

/-- The bytes that were taken since the last flush, if `waiting` were so before. -/
def unflushedIn (waiting : Bytes) : Exchange Streams → Bytes
  | ⟨.write bytes, .ok count⟩ => waiting ++ bytes.take count.val
  | ⟨.flush, .ok ()⟩ => []
  | _ => waiting

/-- The bytes that a dialogue takes after the last flush that succeeds. -/
def unflushed (d : Dialogue Streams) : Bytes := d.foldl unflushedIn []

@[simp] theorem unflushed_nil : unflushed [] = [] := rfl

/-- What is not asked for is not brought. -/
theorem heard_of_not_isRead {d : Dialogue Streams} (h : ∀ x ∈ d, ¬ IsRead x.question) :
    heard d = [] := by
  refine List.flatMap_eq_nil_iff.2 fun x hx => ?_
  match x, h x hx with
  | ⟨.write _, _⟩, _ => rfl
  | ⟨.flush, _⟩, _ => rfl
  | ⟨.read _, _⟩, hread => exact (hread trivial).elim

/-- Nothing is taken while bytes are asked for. -/
theorem taken_of_isRead {d : Dialogue Streams} (h : ∀ x ∈ d, IsRead x.question) :
    taken d = [] := by
  refine List.flatMap_eq_nil_iff.2 fun x hx => ?_
  match x, h x hx with
  | ⟨.read _, _⟩, _ => rfl

/-- A write of which the stream takes something. -/
def IsTaking : Exchange Streams → Prop
  | ⟨.write _, .ok count⟩ => 0 < count.val
  | _ => False

theorem not_isRead_of_isTaking {x : Exchange Streams} (h : IsTaking x) : ¬ IsRead x.question := by
  match x with
  | ⟨.write _, _⟩ => exact id

/-- The cause for which writing is given up: a stream that takes nothing is full for good. -/
def causeOf {size : Nat} : Except IoFailure (Fin (size + 1)) → Option IoFailure
  | .ok count => if count.val = 0 then some .writeZero else none
  | .error cause => some cause

/-! ## Bytes -/

/-- How far writing has come. -/
inductive Written (bytes : Bytes) : Dialogue Streams → Task Streams Unit → Prop where
  | waits {d : Dialogue Streams} {rest : Bytes} {next} (takings : ∀ x ∈ d, IsTaking x)
      (split : taken d ++ rest = bytes) (more : rest ≠ []) :
      Written bytes d (.ask (I := Streams) (.write rest) next)
  | complete {d : Dialogue Streams} (takings : ∀ x ∈ d, IsTaking x) (all : taken d = bytes) :
      Written bytes d (.done ())
  | broke {d : Dialogue Streams} {rest : Bytes} {stop : Except IoFailure (Fin (rest.length + 1))}
      {cause : IoFailure} (takings : ∀ x ∈ d, IsTaking x) (split : taken d ++ rest = bytes)
      (more : rest ≠ []) (breaks : causeOf stop = some cause) :
      Written bytes (d ++ [⟨.write rest, stop⟩]) (.fail (.io cause))

theorem leads_writeWithin {bound : Nat} {bytes : Bytes} {h : bytes.length ≤ bound}
    {d : Dialogue Streams} {u : Task Streams Unit} (hl : Leads (writeWithin bound bytes h) d u) :
    Written bytes d u := by
  induction bound generalizing bytes d with
  | zero =>
    obtain rfl : bytes = [] := List.length_eq_zero_iff.1 (by omega)
    rw [writeWithin] at hl
    obtain ⟨rfl, rfl⟩ := leads_done_iff.1 hl
    exact .complete (by simp) rfl
  | succ bound ih =>
    cases bytes with
    | nil =>
      rw [writeWithin] at hl
      obtain ⟨rfl, rfl⟩ := leads_done_iff.1 hl
      exact .complete (by simp) rfl
    | cons b bytes =>
      rw [writeWithin] at hl
      rcases leads_ask_iff.1 hl with ⟨rfl, rfl⟩ | ⟨a, d', rfl, hl'⟩
      · exact .waits (by simp) rfl (by simp)
      · match a with
        | .error cause =>
          obtain ⟨rfl, rfl⟩ := leads_fail_iff.1 hl'
          exact .broke (d := []) (by simp) rfl (by simp) rfl
        | .ok ⟨0, _⟩ =>
          obtain ⟨rfl, rfl⟩ := leads_fail_iff.1 hl'
          exact .broke (d := []) (by simp) rfl (by simp) rfl
        | .ok ⟨count + 1, _⟩ =>
          have hsplit : ∀ front, front = bytes.drop count →
              b :: (bytes.take count ++ front) = b :: bytes := by
            rintro _ rfl
            rw [List.take_append_drop]
          cases ih hl' with
          | waits takings split more =>
            refine .waits (List.forall_mem_cons.2 ⟨Nat.succ_pos count, takings⟩) ?_ more
            simpa [taken, takenIn] using hsplit _ split
          | complete takings all =>
            refine .complete (List.forall_mem_cons.2 ⟨Nat.succ_pos count, takings⟩) ?_
            simpa [taken, takenIn] using hsplit _ all
          | @broke d' _ _ _ takings split more breaks =>
            rw [← List.cons_append]
            refine .broke (List.forall_mem_cons.2 ⟨Nat.succ_pos count, takings⟩) ?_ more breaks
            simpa [taken, takenIn] using hsplit _ split

/-! ## Messages -/

/-- How far a message has come: some of its bytes are to be written, the flush is due, it is out,
or the stream has failed. -/
inductive Sent (bytes : Bytes) : Dialogue Streams → Task Streams Unit → Prop where
  | writes {d : Dialogue Streams} {rest : Bytes} {next} (takings : ∀ x ∈ d, IsTaking x)
      (split : taken d ++ rest = bytes) (more : rest ≠ []) :
      Sent bytes d (.ask (I := Streams) (.write rest) next)
  | flushes {d : Dialogue Streams} {next} (takings : ∀ x ∈ d, IsTaking x) (all : taken d = bytes) :
      Sent bytes d (.ask (I := Streams) .flush next)
  | complete {d : Dialogue Streams} (takings : ∀ x ∈ d, IsTaking x) (all : taken d = bytes) :
      Sent bytes (d ++ [⟨.flush, .ok ()⟩]) (.done ())
  | broke {d : Dialogue Streams} {rest : Bytes} {stop : Except IoFailure (Fin (rest.length + 1))}
      {cause : IoFailure} (takings : ∀ x ∈ d, IsTaking x) (split : taken d ++ rest = bytes)
      (more : rest ≠ []) (breaks : causeOf stop = some cause) :
      Sent bytes (d ++ [⟨.write rest, stop⟩]) (.fail (.io cause))
  | stuck {d : Dialogue Streams} {cause : IoFailure} (takings : ∀ x ∈ d, IsTaking x)
      (all : taken d = bytes) : Sent bytes (d ++ [⟨.flush, .error cause⟩]) (.fail (.io cause))

theorem leads_flush {d : Dialogue Streams} {u : Task Streams Unit} (hl : Leads flush d u) :
    (d = [] ∧ ∃ next, u = .ask (I := Streams) .flush next) ∨
      (d = [⟨.flush, .ok ()⟩] ∧ u = .done ()) ∨
      ∃ cause, d = [⟨.flush, .error cause⟩] ∧ u = .fail (.io cause) := by
  rcases leads_ask_iff.1 hl with ⟨rfl, rfl⟩ | ⟨a, d', rfl, hl'⟩
  · exact .inl ⟨rfl, _, rfl⟩
  · match a with
    | .ok () =>
      obtain ⟨rfl, rfl⟩ := leads_done_iff.1 hl'
      exact .inr (.inl ⟨rfl, rfl⟩)
    | .error cause =>
      obtain ⟨rfl, rfl⟩ := leads_fail_iff.1 hl'
      exact .inr (.inr ⟨cause, rfl, rfl⟩)

/-- How far the written form of a message has come after a dialogue. -/
theorem leads_send {bytes : Bytes} {d : Dialogue Streams} {u : Task Streams Unit}
    (hl : Leads (send (.ok bytes)) d u) : Sent bytes d u := by
  have hl : Leads ((writeAll bytes).bind fun _ => flush) d u := hl
  rcases leads_bind_iff.1 hl with ⟨u', hu, rfl⟩ | ⟨_, d₁, d₂, rfl, h₁, h₂⟩
  · cases leads_writeWithin hu with
    | waits takings split more => exact .writes takings split more
    | complete takings all => exact .flushes takings all
    | broke takings split more breaks => exact .broke takings split more breaks
  · cases leads_writeWithin h₁ with
    | complete takings all =>
      rcases leads_flush h₂ with ⟨rfl, next, rfl⟩ | ⟨rfl, rfl⟩ | ⟨cause, rfl, rfl⟩
      · rw [List.append_nil]
        exact .flushes takings all
      · exact .complete takings all
      · exact .stuck takings all

/-- What gives writing up takes nothing. -/
theorem takenIn_of_causeOf {rest : Bytes} {stop : Except IoFailure (Fin (rest.length + 1))}
    {cause : IoFailure} (h : causeOf stop = some cause) :
    takenIn ⟨.write rest, stop⟩ = [] := by
  match stop with
  | .error _ => rfl
  | .ok count =>
    by_cases hcount : count.val = 0
    · show rest.take count.val = []
      rw [hcount, List.take_zero]
    · rw [causeOf, if_neg hcount] at h
      cases h

/-- Writing a message asks for no bytes. -/
theorem Sent.not_isRead {bytes : Bytes} {d : Dialogue Streams} {u : Task Streams Unit}
    (h : Sent bytes d u) : ∀ x ∈ d, ¬ IsRead x.question := by
  have htakings : ∀ {d : Dialogue Streams}, (∀ x ∈ d, IsTaking x) →
      ∀ x ∈ d, ¬ IsRead x.question := fun h x hx => not_isRead_of_isTaking (h x hx)
  cases h with
  | writes takings _ _ => exact htakings takings
  | flushes takings _ => exact htakings takings
  | complete takings _ =>
    exact List.forall_mem_append.2 ⟨htakings takings, List.forall_mem_singleton.2 id⟩
  | broke takings _ _ _ =>
    exact List.forall_mem_append.2 ⟨htakings takings, List.forall_mem_singleton.2 id⟩
  | stuck takings _ =>
    exact List.forall_mem_append.2 ⟨htakings takings, List.forall_mem_singleton.2 id⟩

/-- What has been taken of a message is its front. -/
theorem Sent.taken_isPrefix {bytes : Bytes} {d : Dialogue Streams} {u : Task Streams Unit}
    (h : Sent bytes d u) : taken d <+: bytes := by
  cases h with
  | writes _ split _ => exact ⟨_, split⟩
  | flushes _ all => exact ⟨[], by rw [all, List.append_nil]⟩
  | complete _ all =>
    rw [taken_append, all]
    exact ⟨[], by simp [taken, takenIn]⟩
  | @broke _ rest stop _ _ split _ breaks =>
    have hnone : taken [⟨.write rest, stop⟩] = [] := by
      rw [taken, List.flatMap_singleton, takenIn_of_causeOf breaks]
    rw [taken_append, hnone, List.append_nil]
    exact ⟨_, split⟩
  | stuck _ all =>
    rw [taken_append, all]
    exact ⟨[], by simp [taken, takenIn]⟩

/-- A message comes out where its bytes are taken at once and the flush succeeds. -/
theorem exists_leads_send (bytes : Bytes) :
    ∃ d, (∀ x ∈ d, IsTaking x) ∧ taken d = bytes ∧
      Leads (send (.ok bytes)) (d ++ [⟨.flush, .ok ()⟩]) (.done ()) := by
  have hflush : Leads flush [⟨.flush, .ok ()⟩] (.done ()) := .step (.refl _)
  have hsend : ∀ d, Leads (writeAll bytes) d (.done ()) →
      Leads (send (.ok bytes)) (d ++ [⟨.flush, .ok ()⟩]) (.done ()) := fun d h =>
    (leads_bind_iff (t := writeAll bytes)).2 (.inr ⟨(), d, _, rfl, h, hflush⟩)
  cases bytes with
  | nil => exact ⟨[], by simp, rfl, hsend _ (.refl _)⟩
  | cons b bytes =>
    refine ⟨[⟨.write (b :: bytes), .ok (Fin.last _)⟩], ?_, ?_, hsend _ ?_⟩
    · exact List.forall_mem_singleton.2 (Nat.succ_pos _)
    · simp [taken, takenIn]
    · refine .step ?_
      have hdone : ∀ (rest : Bytes) (bound : Nat) (h : rest.length ≤ bound), rest = [] →
          writeWithin bound rest h = .done () := by
        rintro _ bound h rfl
        cases bound <;> rfl
      have hdrop : bytes.drop bytes.length = [] := List.drop_length
      show Leads (writeWithin bytes.length (bytes.drop bytes.length) _) [] (.done ())
      rw [hdone _ _ _ hdrop]
      exact .refl _

end Socks5.Stream
