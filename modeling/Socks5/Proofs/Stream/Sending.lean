import Socks5.Proofs.Stream.Pieces
import Socks5.Proofs.Stream.Writing
import Socks5.Wire.Buffer

/-!
# Sending a message

What reaches a stream of a message, whatever the stream does with what it is asked for. A message is
first written into a buffer of its own, so that one that cannot be written leaves the stream alone,
however much of it stands in the buffer. Otherwise the stream takes its bytes in their order, and is
flushed when it has taken all of them. Main statements: what was asked of the stream at any moment,
and when that was a success (`carries_of_leads`); what has become of a stream in memory
(`run_send`).
-/

namespace Socks5.Stream

open Socks5.Task (Leads leads_fail_iff leads_ask_iff)

variable {α : Type} {m : AnyMessage} {bytes : Bytes} {d : Dialogue Streams}
  {t : Task Streams Unit}

/-! ## What is asked of a stream -/

/-- What a task is waiting for. -/
def pending : Task Streams α → List Ask
  | .ask q _ => [q]
  | _ => []

/-- Whether a stream is asked to flush. -/
def isFlush : Ask → Bool
  | .flush => true
  | _ => false

/-- How often a stream was asked to flush, whether it has answered or not. -/
def flushes (d : Dialogue Streams) (t : Task Streams α) : Nat :=
  d.countP (fun x => isFlush x.question) + (pending t).countP isFlush

/-- While a stream takes bytes it is not flushed. -/
theorem flushes_append_of_isTaking (h : ∀ x ∈ d, IsTaking x) (d' : Dialogue Streams)
    (t : Task Streams α) : flushes (d ++ d') t = flushes d' t := by
  have hnone : d.countP (fun x => isFlush x.question) = 0 := by
    refine List.countP_eq_zero.2 fun x hx => ?_
    match x, h x hx with
    | ⟨.write _, _⟩, _ => exact Bool.false_ne_true
  rw [flushes, List.countP_append, hnone, Nat.zero_add, flushes]

theorem flushes_of_isTaking (h : ∀ x ∈ d, IsTaking x) (t : Task Streams α) :
    flushes d t = flushes [] t := by
  rw [← flushes_append_of_isTaking h [] t, List.append_nil]

theorem flush_notMem_of_isTaking (h : ∀ x ∈ d, IsTaking x) (a : Except IoFailure Unit) :
    ⟨.flush, a⟩ ∉ d := fun hflush => h _ hflush

/-! ## Sending bytes -/

/-- How bytes are sent: what a stream has taken of them is their front, and it is asked to take the
rest until there is none; then it is flushed, once, and that is the end. -/
structure Exact (bytes : Bytes) (d : Dialogue Streams) (t : Task Streams Unit) : Prop where
  /-- What was taken is the front of the bytes. -/
  front : taken d <+: bytes
  /-- The stream is asked to take the rest, or to flush if there is none. -/
  asks : ∀ q ∈ pending t,
    (∃ rest, q = .write rest ∧ rest ≠ [] ∧ taken d ++ rest = bytes) ∨ q = .flush ∧ taken d = bytes
  /-- One flush is asked for as soon as all bytes were taken, and none before. -/
  flushed : flushes d t = if taken d = bytes then 1 else 0
  /-- Sending succeeds exactly if all bytes were taken and this flush has succeeded. -/
  succeeds : t = .done () ↔ taken d = bytes ∧ ⟨.flush, .ok ()⟩ ∈ d

theorem ne_of_split {front rest : Bytes} (h : front ++ rest = bytes) (hmore : rest ≠ []) :
    front ≠ bytes := by
  rintro rfl
  exact hmore (List.append_right_eq_self.1 h)

theorem Sent.exact (h : Sent bytes d t) : Exact bytes d t := by
  have hfront := h.taken_isPrefix
  cases h with
  | @writes _ rest next takings split more =>
    have hshort := ne_of_split split more
    refine ⟨hfront, ?_, ?_, ?_⟩
    · rintro q (_ | ⟨_, ⟨⟩⟩)
      exact .inl ⟨rest, rfl, more, split⟩
    · rw [if_neg hshort, flushes_of_isTaking takings]
      rfl
    · constructor
      · intro hdone
        cases hdone
      · exact fun hp => absurd hp.1 hshort
  | flushes takings all =>
    refine ⟨hfront, ?_, ?_, ?_⟩
    · rintro q (_ | ⟨_, ⟨⟩⟩)
      exact .inr ⟨rfl, all⟩
    · rw [if_pos all, flushes_of_isTaking takings]
      rfl
    · constructor
      · intro hdone
        cases hdone
      · exact fun hp => absurd hp.2 (flush_notMem_of_isTaking takings _)
  | @complete d takings all =>
    have hall : taken (d ++ [⟨.flush, .ok ()⟩]) = bytes := by
      rw [taken_append, all]
      exact List.append_nil _
    refine ⟨hfront, fun q hq => absurd hq List.not_mem_nil, ?_, ?_⟩
    · rw [if_pos hall, flushes_append_of_isTaking takings]
      rfl
    · exact ⟨fun _ => ⟨hall, by simp⟩, fun _ => rfl⟩
  | @broke d rest stop cause takings split more breaks =>
    have htaken : taken (d ++ [⟨.write rest, stop⟩]) = taken d := by
      rw [taken_append]
      refine (congrArg (taken d ++ ·) ?_).trans (List.append_nil _)
      rw [taken, List.flatMap_singleton, takenIn_of_causeOf breaks]
    have hshort := ne_of_split split more
    refine ⟨hfront, fun q hq => absurd hq List.not_mem_nil, ?_, ?_⟩
    · rw [htaken, if_neg hshort, flushes_append_of_isTaking takings]
      rfl
    · rw [htaken]
      constructor
      · intro hdone
        cases hdone
      · exact fun hp => absurd hp.1 hshort
  | @stuck d cause takings all =>
    have hall : taken (d ++ [⟨.flush, .error cause⟩]) = bytes := by
      rw [taken_append, all]
      exact List.append_nil _
    refine ⟨hfront, fun q hq => absurd hq List.not_mem_nil, ?_, ?_⟩
    · rw [if_pos hall, flushes_append_of_isTaking takings]
      rfl
    · constructor
      · intro hdone
        cases hdone
      · intro hp
        rcases List.mem_append.1 hp.2 with hflush | hflush
        · exact absurd hflush (flush_notMem_of_isTaking takings _)
        · cases List.mem_singleton.1 hflush

/-! ## Sending a message -/

/-- How a message is sent: if it can be written into a buffer, what is in the buffer then is sent;
if not, the stream is not asked for anything, whatever was left in the buffer. -/
structure Carries (m : AnyMessage) (d : Dialogue Streams) (t : Task Streams Unit) : Prop where
  nothing : ∀ e left, m.write.into [] = (.error e, left) → d = [] ∧ t = .fail e
  whole : ∀ bytes, m.write.into [] = (.ok (), bytes) → Exact bytes d t

/-- A message is sent as a whole or not at all, whatever the stream answers. -/
theorem carries_of_leads (h : Leads (send m.encode) d t) : Carries m d t := by
  rw [AnyMessage.encode_eq] at h
  constructor
  · intro e left hwrite
    rw [hwrite] at h
    exact leads_fail_iff.1 h
  · intro bytes hwrite
    rw [hwrite] at h
    exact (leads_send h).exact

/-- What a request with an empty name leaves in the buffer does not reach the stream. -/
example : (AnyMessage.request ⟨1, ⟨.domain "", 80⟩, none⟩).write.into [] =
    (.error (.malformed (.domainSize 0)), [5, 1, 0, 3]) := rfl

/-- A choice that a stream takes byte by byte. -/
theorem carries_of_leads_methodChoice :
    Leads (send (AnyMessage.methodChoice ⟨.noAuth⟩).encode)
        [⟨.write [5, 0], .ok 1⟩, ⟨.write [0], .ok 1⟩, ⟨.flush, .ok ()⟩] (.done ()) ∧
      Carries (.methodChoice ⟨.noAuth⟩)
        [⟨.write [5, 0], .ok 1⟩, ⟨.write [0], .ok 1⟩, ⟨.flush, .ok ()⟩] (.done ()) := by
  have h : Leads (send (AnyMessage.methodChoice ⟨.noAuth⟩).encode)
      [⟨.write [5, 0], .ok 1⟩, ⟨.write [0], .ok 1⟩, ⟨.flush, .ok ()⟩] (.done ()) :=
    .step <| .step <| .step <| .refl _
  exact ⟨h, carries_of_leads h⟩

end Socks5.Stream

namespace Socks5.Sink

/-- A write leaves the way of a sink as it is. -/
theorem intake_write (bytes : Bytes) (s : Sink) : (s.write bytes).2.intake = s.intake := by
  unfold write
  by_cases h : s.room bytes.length = 0
  · cases s.intake.whenFull <;> simp [h]
  · simp [h, accept]

end Socks5.Sink

namespace Socks5.Duplex

open Socks5.Task (Leads)
open Socks5.Stream (taken takenIn flushes isFlush pending send)

/-! ## Streams in memory -/

variable {α : Type} {s s' : Duplex} {d : Dialogue Streams}

/-- What has become of a stream in memory after a dialogue with it: it has taken the bytes, was
flushed as often as it was asked to, and is flushed in the same way. -/
structure After (s s' : Duplex) (d : Dialogue Streams) : Prop where
  accepts : s'.sink.accepted = s.sink.accepted ++ taken d
  flushed : s'.sink.flushes = s.sink.flushes + d.countP fun x => isFlush x.question
  intake : s'.sink.intake = s.sink.intake
  answers : ∀ a, ⟨.flush, a⟩ ∈ d → a = s.sink.flush.1

theorem after_nil (s : Duplex) : After s s [] := ⟨by simp, rfl, rfl, nofun⟩

/-- One answer of a stream in memory. -/
theorem after_answer {q : Stream.Ask} {a : Stream.Answer q} (h : s.answer q = (some a, s')) :
    After s s' [⟨q, a⟩] := by
  cases q with
  | read room =>
    obtain ⟨_, rfl⟩ := Prod.mk.inj h
    refine ⟨?_, rfl, rfl, ?_⟩
    · exact (List.append_nil _).symm
    · intro a hflush
      cases List.mem_singleton.1 hflush
  | write bytes =>
    have hwrite : (s.sink.write bytes).1 = some a := (Prod.mk.inj h).1
    have hsink : (s.sink.write bytes).2 = s'.sink := congrArg sink (Prod.mk.inj h).2
    have htaken : bytes.take (Sink.taken (some a)) = takenIn ⟨.write bytes, a⟩ := by
      cases a with
      | ok count => rfl
      | error cause => rfl
    refine ⟨?_, ?_, ?_, ?_⟩
    · have haccepted := Sink.accepted_write bytes s.sink
      rw [hwrite, hsink, htaken] at haccepted
      exact haccepted.trans (congrArg (s.sink.accepted ++ ·) (List.append_nil _).symm)
    · exact hsink ▸ Sink.flushes_write bytes s.sink
    · exact hsink ▸ Sink.intake_write bytes s.sink
    · intro a hflush
      cases List.mem_singleton.1 hflush
  | flush =>
    obtain ⟨ha, rfl⟩ := Prod.mk.inj h
    refine ⟨?_, rfl, rfl, ?_⟩
    · exact (List.append_nil _).symm
    · intro a' hflush
      cases List.mem_singleton.1 hflush
      exact (Option.some.inj ha).symm

theorem After.trans {s'' : Duplex} {d' : Dialogue Streams} (h : After s s' d)
    (h' : After s' s'' d') : After s s'' (d ++ d') where
  accepts := by rw [h'.accepts, h.accepts, Stream.taken_append, List.append_assoc]
  flushed := by rw [h'.flushed, h.flushed, List.countP_append, Nat.add_assoc]
  intake := h'.intake.trans h.intake
  answers a ha := by
    have hsame : s'.sink.flush.1 = s.sink.flush.1 := by
      rw [Sink.flush, Sink.flush, h.intake]
    rcases List.mem_append.1 ha with ha | ha
    · exact h.answers a ha
    · exact (h'.answers a ha).trans hsame

/-- Work on a stream in memory is a dialogue with it, and never waits for a flush. -/
theorem exists_after_run (t : Task Streams α) (s : Duplex) :
    ∃ d, Leads t d (s.run t).1 ∧ After s (s.run t).2 d ∧ .flush ∉ pending (s.run t).1 := by
  induction t generalizing s with
  | done a => exact ⟨[], .refl _, after_nil s, nofun⟩
  | fail e => exact ⟨[], .refl _, after_nil s, nofun⟩
  | ask q next ih =>
    rcases hanswer : s.answer q with ⟨_ | a, left⟩
    · rw [run_of_open hanswer]
      cases q with
      | read room =>
        obtain ⟨_, rfl⟩ := Prod.mk.inj hanswer
        exact ⟨[], .refl _, ⟨(List.append_nil _).symm, rfl, rfl, nofun⟩, by simp [pending]⟩
      | write bytes =>
        have hwrite : s.sink.write bytes = (none, left.sink) :=
          Prod.ext (Prod.mk.inj hanswer).1 (congrArg sink (Prod.mk.inj hanswer).2)
        have hsink := eq_of_write_none hwrite
        exact ⟨[], .refl _, ⟨by simp [hsink], by simp [hsink], by rw [hsink], nofun⟩,
          by simp [pending]⟩
      | flush => cases (Prod.mk.inj hanswer).1
    · rw [run_of_answer hanswer]
      obtain ⟨d, hl, hafter, hpending⟩ := ih a left
      exact ⟨⟨q, a⟩ :: d, .step hl, (after_answer hanswer).trans hafter, hpending⟩

/-- What becomes of a message on a stream in memory. One that cannot be written leaves the stream as
it was; of any other one the stream takes the front, and it is flushed if that is all of it. -/
theorem run_send (s : Duplex) (m : AnyMessage) :
    match m.encode with
    | .error e => s.run (send m.encode) = (.fail e, s)
    | .ok bytes => ∃ front rest, front ++ rest = bytes ∧
        (s.run (send m.encode)).2.sink.accepted = s.sink.accepted ++ front ∧
        (s.run (send m.encode)).2.sink.flushes = s.sink.flushes + (if rest = [] then 1 else 0) ∧
        ((s.run (send m.encode)).1 = .done () ↔
          rest = [] ∧ s.sink.intake.flushFailure = none) := by
  cases hencode : m.encode with
  | error e => rfl
  | ok bytes =>
    obtain ⟨d, hl, hafter, hwaits⟩ := exists_after_run (send (.ok bytes)) s
    have hexact := (Stream.leads_send hl).exact
    obtain ⟨rest, hsplit⟩ := hexact.front
    have hall : taken d = bytes ↔ rest = [] := by
      rw [← hsplit]
      exact List.self_eq_append_right
    -- a flush that was asked for has been answered
    have hflushes : d.countP (fun x => isFlush x.question) = if rest = [] then 1 else 0 := by
      have hnone : (pending (s.run (send (.ok bytes))).1).countP isFlush = 0 :=
        List.countP_eq_zero.2 fun q hq hflush => by
          cases q with
          | flush => exact hwaits hq
          | _ => cases hflush
      have hflushed := hexact.flushed
      rw [flushes, hnone, Nat.add_zero] at hflushed
      simpa only [hall] using hflushed
    refine ⟨taken d, rest, hsplit, hafter.accepts, hflushes ▸ hafter.flushed, ?_⟩
    rw [hexact.succeeds, hall]
    refine and_congr_right fun hrest => ⟨fun hflush => ?_, fun hworks => ?_⟩
    · have hanswer := hafter.answers _ hflush
      rw [Sink.flush] at hanswer
      cases hfailure : s.sink.intake.flushFailure with
      | none => rfl
      | some cause =>
        rw [hfailure] at hanswer
        cases hanswer
    · have hpos : 0 < d.countP fun x => isFlush x.question := by
        rw [hflushes, if_pos hrest]
        exact Nat.one_pos
      obtain ⟨⟨q, a⟩, hx, hq⟩ := List.countP_pos_iff.1 hpos
      cases q with
      | flush =>
        have hanswer := hafter.answers a hx
        rw [Sink.flush, hworks] at hanswer
        obtain rfl : a = .ok () := hanswer
        exact hx
      | _ => cases hq

end Socks5.Duplex
