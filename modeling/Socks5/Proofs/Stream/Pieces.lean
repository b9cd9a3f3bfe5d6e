import Socks5.Proofs.Stream.Arrivals
import Socks5.Proofs.Stream.Reading
import Socks5.Stream.Duplex

/-!
# Reading a stream in memory

What a reader comes to on a stream in memory is what it comes to over the bytes that the stream
brings, in whatever pieces they come and whenever each of them comes. Main statements: a task that
waits goes on, when more arrives, as if all of it had been there before (`attend_eq`); what has
been read is the front of what was brought (`came_run`); a reading that the bytes at hand settle is
the same whatever follows them (`run_of_finished`), and one that lacks bytes waits for them
(`run_of_lacking`) or meets the end (`run_of_lacking_end`).
-/

namespace Socks5

namespace Task

variable {I : Interface} {α σ : Type} {answer : (q : I.Ask) → σ → Option (I.Answer q) × σ}
  {q : I.Ask} {next : I.Answer q → Task I α} {s s' : σ}

theorem settle_of_some {a : I.Answer q} (h : answer q s = (some a, s')) :
    (ask q next).settle answer s = (next a).settle answer s' := by
  rw [settle_ask, h]

theorem settle_of_none (h : answer q s = (none, s')) :
    (ask q next).settle answer s = (ask q next, s') := by
  rw [settle_ask, h]

end Task

/-! ## Bytes off the front -/

namespace Source

/-- What has arrived yields bytes, and leaves the rest. Blank pieces and interruptions are passed
over. -/
inductive Yields : List Arrival → Bytes → List Arrival → Prop where
  | refl (arrivals : List Arrival) : Yields arrivals [] arrivals
  | byte {b : UInt8} {bytes read : Bytes} {rest left : List Arrival}
      (h : Yields (.piece bytes :: rest) read left) :
      Yields (.piece (b :: bytes) :: rest) (b :: read) left
  | blank {read : Bytes} {rest left : List Arrival} (h : Yields rest read left) :
      Yields (.piece [] :: rest) read left
  | interruption {cause : IoFailure} {read : Bytes} {rest left : List Arrival}
      (hkind : cause.kind = .interrupted) (h : Yields rest read left) :
      Yields (.fault cause :: rest) read left

namespace Yields

variable {before middle after later left : List Arrival} {bytes : Bytes}

theorem trans {bytes' : Bytes} (h : Yields before bytes middle) (h' : Yields middle bytes' after) :
    Yields before (bytes ++ bytes') after := by
  induction h with
  | refl => exact h'
  | byte _ ih => exact .byte (ih h')
  | blank _ ih => exact .blank (ih h')
  | interruption hkind _ ih => exact .interruption hkind (ih h')

/-- Bytes that are yielded are passed over. -/
theorem passes (h : Yields before bytes after) : Passes before bytes after := by
  induction h with
  | refl => exact .refl _
  | byte _ ih =>
    intro more
    have hrest := ih more
    rw [streamed_piece_append] at hrest ⊢
    rw [List.cons_append, hrest, List.cons_append]
  | blank _ ih => exact ih
  | interruption _ _ ih => exact ih

theorem append_bytes (h : Yields before bytes after) :
    before.flatMap Arrival.bytes = bytes ++ after.flatMap Arrival.bytes := by
  induction h with
  | refl => rfl
  | byte _ ih => simpa [Arrival.bytes] using ih
  | blank _ ih => simpa [Arrival.bytes] using ih
  | interruption _ _ ih => simpa [Arrival.bytes] using ih

/-- A piece yields its first bytes. -/
theorem take (count : Nat) (bytes : Bytes) (rest : List Arrival) :
    Yields (.piece bytes :: rest) (bytes.take count) (.piece (bytes.drop count) :: rest) := by
  induction count generalizing bytes with
  | zero => exact .refl _
  | succ count ih =>
    cases bytes with
    | nil => exact .refl _
    | cons b bytes => exact .byte (ih bytes)

theorem eq_of_nil (h : Yields [] bytes left) : bytes = [] ∧ left = [] := by
  cases h
  exact ⟨rfl, rfl⟩

theorem eq_of_finish (h : Yields (.finish :: later) bytes left) :
    bytes = [] ∧ left = .finish :: later := by
  cases h
  exact ⟨rfl, rfl⟩

/-- Bytes off pieces and what comes behind them are bytes off the pieces, or all of the pieces and
bytes off what comes behind. -/
theorem of_pieces {pieces : List Bytes} (h : Yields (pieces.map .piece ++ later) bytes left) :
    (∃ rest : List Bytes, left = rest.map .piece ++ later ∧
      pieces.flatten = bytes ++ rest.flatten) ∨
      ∃ more, bytes = pieces.flatten ++ more ∧ Yields later more left := by
  generalize harrivals : pieces.map Arrival.piece ++ later = arrivals at h
  induction h generalizing pieces with
  | refl => exact .inl ⟨pieces, harrivals.symm, rfl⟩
  | @byte b rest read arrivals left h ih =>
    cases pieces with
    | nil => exact .inr ⟨b :: read, rfl, by rw [← List.nil_append later]; exact harrivals ▸ .byte h⟩
    | cons piece pieces =>
      obtain ⟨hpiece, hrest⟩ := List.cons.inj harrivals
      cases hpiece
      have harrivals : (rest :: pieces).map Arrival.piece ++ later = .piece rest :: arrivals :=
        congrArg _ hrest
      rcases ih harrivals with ⟨kept, hleft, hflat⟩ | ⟨more, hread, hmore⟩
      · exact .inl ⟨kept, hleft, by simpa using hflat⟩
      · exact .inr ⟨more, by simpa using hread, hmore⟩
  | blank h ih =>
    cases pieces with
    | nil => exact .inr ⟨_, rfl, by rw [← List.nil_append later]; exact harrivals ▸ .blank h⟩
    | cons piece pieces =>
      obtain ⟨hpiece, hrest⟩ := List.cons.inj harrivals
      cases hpiece
      have hsplit := ih (show pieces.map Arrival.piece ++ later = _ from hrest)
      exact hsplit
  | interruption hkind h ih =>
    cases pieces with
    | nil =>
      exact .inr ⟨_, rfl, by rw [← List.nil_append later]; exact harrivals ▸ .interruption hkind h⟩
    | cons piece pieces => cases harrivals

end Yields

theorem yields_resumeFrom (arrivals : List Arrival) :
    Yields arrivals [] (resumeFrom arrivals) := by
  fun_induction resumeFrom arrivals with
  | case1 => exact .refl []
  | case2 rest ih => exact .blank ih
  | case3 => exact .refl _
  | case4 => exact .refl _
  | case5 cause rest hkind ih => exact .interruption hkind ih
  | case6 => exact .refl _

/-- What a read comes to. -/
inductive Answered {room : Nat} (arrivals : List Arrival) :
    Option (Except IoFailure (Option (Stream.Piece room))) × List Arrival → Prop where
  | waits (h : Yields arrivals [] []) : Answered arrivals (none, [])
  | piece {piece : Stream.Piece room} {left : List Arrival} (h : Yields arrivals piece.bytes left) :
      Answered arrivals (some (.ok (some piece)), left)
  | ended {more : List Arrival} (h : Yields arrivals [] (.finish :: more)) :
      Answered arrivals (some (.ok none), .finish :: more)
  | broke {cause : IoFailure} {left : List Arrival}
      (h : Yields arrivals [] (.fault cause :: left)) :
      Answered arrivals (some (.error cause), left)

theorem answered_readFrom {room : Nat} (hroom : 0 < room) (arrivals : List Arrival) :
    Answered arrivals (readFrom room arrivals) := by
  induction arrivals with
  | nil => exact .waits (.refl [])
  | cons arrival rest ih =>
    match arrival with
    | .piece [] =>
      rw [readFrom]
      generalize readFrom room rest = r at ih
      cases ih with
      | waits h => exact .waits (.blank h)
      | piece h => exact .piece (.blank h)
      | ended h => exact .ended (.blank h)
      | broke h => exact .broke (.blank h)
    | .piece (b :: bytes) =>
      rw [readFrom, dif_pos hroom]
      exact .piece (.take room (b :: bytes) rest)
    | .finish => exact .ended (.refl _)
    | .fault cause => exact .broke (.refl _)

/-- A reader that is interrupted reads on. -/
theorem answered_read {room : Nat} (hroom : 0 < room) (arrivals : List Arrival) :
    Answered arrivals (readFrom room (resumeFrom arrivals)) := by
  have hresume := yields_resumeFrom arrivals
  have hread := answered_readFrom hroom (resumeFrom arrivals)
  generalize readFrom room (resumeFrom arrivals) = r at hread
  cases hread with
  | waits h => exact .waits (hresume.trans h)
  | piece h => exact .piece (hresume.trans h)
  | ended h => exact .ended (hresume.trans h)
  | broke h => exact .broke (hresume.trans h)

/-- What is handed over does not depend on what comes later, and a reader that waited finds what it
would have found at once. -/
theorem readFrom_append (room : Nat) (arrivals more : List Arrival) :
    match readFrom room (resumeFrom arrivals) with
    | (some answer, left) =>
      readFrom room (resumeFrom (arrivals ++ more)) = (some answer, left ++ more)
    | (none, left) =>
      readFrom room (resumeFrom (left ++ more)) =
        readFrom room (resumeFrom (arrivals ++ more)) := by
  fun_induction resumeFrom arrivals with
  | case1 => rfl
  | case2 rest ih => exact ih
  | case3 b bytes rest =>
    by_cases hroom : 0 < room <;> simp [readFrom, resumeFrom, hroom]
  | case4 rest => rfl
  | case5 cause rest hkind ih => simpa [resumeFrom, hkind] using ih
  | case6 cause rest hkind => simp [readFrom, resumeFrom, hkind]

end Source

namespace Duplex

open Source (Yields)

variable {α : Type} {d : Duplex}

/-! ## Whenever it comes -/

/-- A stream on which more has arrived. -/
def feed (d : Duplex) (more : List Arrival) : Duplex := { d with source := d.source.feed more }

/-- A task over a stream on which more arrives whenever it waits. -/
def attend (t : Task Streams α) (d : Duplex) : List (List Arrival) → Task Streams α × Duplex
  | [] => d.run t
  | more :: portions => attend (d.run t).1 ((d.run t).2.feed more) portions

/-- A write that has to wait takes nothing. -/
theorem eq_of_write_none {bytes : Bytes} {s s' : Sink} (h : s.write bytes = (none, s')) :
    s' = s := by
  unfold Sink.write at h
  by_cases hroom : s.room bytes.length = 0
  · cases hfull : s.intake.whenFull <;> simp [hroom, hfull] at h
    exact h.symm
  · simp [hroom] at h

theorem answer_feed (q : Stream.Ask) (d : Duplex) (more : List Arrival) :
    match d.answer q with
    | (some a, left) => (d.feed more).answer q = (some a, left.feed more)
    | (none, left) => (left.feed more).answer q = (d.feed more).answer q := by
  cases q with
  | read room =>
    have hread := Source.readFrom_append room d.source.arrivals more
    simp only [answer, Source.read, Source.resume, feed, Source.feed]
    rcases hfrom : Source.readFrom room (Source.resumeFrom d.source.arrivals) with ⟨_ | a, left⟩
    · rw [hfrom] at hread
      simp only [hread, Source.handed, List.length_nil, Nat.add_zero]
    · rw [hfrom] at hread
      simp only [hread]
  | write bytes =>
    simp only [answer, feed]
    rcases hwrite : d.sink.write bytes with ⟨_ | a, sink⟩
    · obtain rfl := eq_of_write_none hwrite
      simp only [hwrite]
    · rfl
  | flush => rfl

theorem run_of_answer {q : Streams.Ask} {next : Streams.Answer q → Task Streams α}
    {a : Streams.Answer q} {left : Duplex} (h : d.answer q = (some a, left)) :
    d.run (.ask q next) = left.run (next a) :=
  Task.settle_of_some h

theorem run_of_open {q : Streams.Ask} {next : Streams.Answer q → Task Streams α}
    {left : Duplex} (h : d.answer q = (none, left)) : d.run (.ask q next) = (.ask q next, left) :=
  Task.settle_of_none h

/-- A task that waited goes on, when more arrives, as if all of it had been there before. -/
theorem run_feed (t : Task Streams α) (d : Duplex) (more : List Arrival) :
    ((d.run t).2.feed more).run (d.run t).1 = (d.feed more).run t := by
  induction t generalizing d with
  | done a => rfl
  | fail e => rfl
  | ask q next ih =>
    have hanswer := answer_feed q d more
    rcases hd : d.answer q with ⟨_ | a, left⟩
    · rw [hd] at hanswer
      rw [run_of_open hd]
      rcases hmore : (d.feed more).answer q with ⟨_ | a, left'⟩
      · rw [run_of_open hmore, run_of_open (hanswer.trans hmore)]
      · rw [run_of_answer hmore, run_of_answer (hanswer.trans hmore)]
    · rw [hd] at hanswer
      rw [run_of_answer hd, run_of_answer hanswer]
      exact ih a left

theorem feed_feed (d : Duplex) (more later : List Arrival) :
    (d.feed more).feed later = d.feed (more ++ later) := by
  simp [feed, Source.feed]

theorem attend_eq (t : Task Streams α) (d : Duplex) (portions : List (List Arrival)) :
    d.attend t portions = (d.feed portions.flatten).run t := by
  induction portions generalizing t d with
  | nil => simp [attend, feed, Source.feed]
  | cons more portions ih =>
    rw [attend, ih, feed_feed, run_feed]
    rfl

/-! ## Whatever the pieces -/

/-- A stream of which bytes have been read. -/
def past (d : Duplex) (bytes : Bytes) (left : List Arrival) : Duplex :=
  { d with source := ⟨left, d.source.consumed + bytes.length⟩ }

theorem past_past (d : Duplex) (bytes bytes' : Bytes) (left left' : List Arrival) :
    (d.past bytes left).past bytes' left' = d.past (bytes ++ bytes') left' := by
  simp [past, Nat.add_assoc]

/-- Exactly these bytes have been read of a stream. -/
structure Takes (d : Duplex) (bytes : Bytes) (after : Duplex) : Prop where
  yields : Yields d.source.arrivals bytes after.source.arrivals
  consumed : after.source.consumed = d.source.consumed + bytes.length
  sink : after.sink = d.sink

theorem takes_past {bytes : Bytes} {left : List Arrival}
    (h : Yields d.source.arrivals bytes left) : d.Takes bytes (d.past bytes left) :=
  ⟨h, rfl, rfl⟩

/-- What is left of a stream says which bytes have been read. -/
theorem Takes.unique {bytes bytes' : Bytes} {after : Duplex} (h : d.Takes bytes after)
    (h' : d.Takes bytes' after) : bytes = bytes' := by
  have hbytes := h.yields.append_bytes
  rw [h'.yields.append_bytes] at hbytes
  exact (List.append_cancel_right hbytes).symm

/-- What a read of a stream comes to. -/
inductive Read {room : Nat} (d : Duplex) :
    Option (Except IoFailure (Option (Stream.Piece room))) × Duplex → Prop where
  | waits (h : Yields d.source.arrivals [] []) : Read d (none, d.past [] [])
  | piece {piece : Stream.Piece room} {left : List Arrival}
      (h : Yields d.source.arrivals piece.bytes left) :
      Read d (some (.ok (some piece)), d.past piece.bytes left)
  | ended {more : List Arrival} (h : Yields d.source.arrivals [] (.finish :: more)) :
      Read d (some (.ok none), d.past [] (.finish :: more))
  | broke {cause : IoFailure} {left : List Arrival}
      (h : Yields d.source.arrivals [] (.fault cause :: left)) :
      Read d (some (.error cause), d.past [] left)

theorem read_answer {room : Nat} (hroom : 0 < room) (d : Duplex) :
    Read d (d.answer (.read room)) := by
  have hanswered := Source.answered_read hroom d.source.arrivals
  simp only [answer, Source.read, Source.resume]
  generalize Source.readFrom room (Source.resumeFrom d.source.arrivals) = r at hanswered
  cases hanswered with
  | waits h => exact .waits h
  | piece h => exact .piece h
  | ended h => exact .ended h
  | broke h => exact .broke h

/-- What a reader comes to on a stream: it settles a message, waits for more of a field, or meets
the end or a fault before a field is complete. -/
inductive Came (dec : Decoder α) (d : Duplex) : Task Streams α × Duplex → Prop where
  | settled {bytes : Bytes} {left : List Arrival} {result : Except Failure α}
      (reads : dec.parse bytes = .finished result [])
      (yields : Yields d.source.arrivals bytes left) :
      Came dec d (.ofExcept result, d.past bytes left)
  | waits {bytes : Bytes} {field : Field} {room : Nat} {next}
      (lacks : dec.parse bytes = .lacking field) (yields : Yields d.source.arrivals bytes []) :
      Came dec d (.ask (I := Streams) (.read room) next, d.past bytes [])
  | ended {bytes : Bytes} {field : Field} {more : List Arrival}
      (lacks : dec.parse bytes = .lacking field)
      (yields : Yields d.source.arrivals bytes (.finish :: more)) :
      Came dec d (.fail (.incomplete field), d.past bytes (.finish :: more))
  | broke {bytes : Bytes} {field : Field} {cause : IoFailure} {left : List Arrival}
      (lacks : dec.parse bytes = .lacking field)
      (yields : Yields d.source.arrivals bytes (.fault cause :: left)) :
      Came dec d (.fail (.reading field cause), d.past bytes left)

open Socks5.Task (Leads)
open Socks5.Stream (heard IsPiece Received)

theorem run_ofExcept (result : Except Failure α) (d : Duplex) :
    d.run (.ofExcept result) = (.ofExcept result, d) := by
  cases result <;> rfl

/-- Where reading breaks off, the last read did not bring a piece. -/
theorem eq_of_breaks {dec : Decoder α} {said : Dialogue Streams} {room : Nat}
    {stop : Except IoFailure (Option (Stream.Piece room))} {u : Task Streams α}
    (h : Received dec (said ++ [⟨.read room, stop⟩]) u) (hstop : ¬ IsPiece ⟨.read room, stop⟩) :
    ∃ field e, dec.parse (heard said) = .lacking field ∧
      Stream.failureOf field stop = some e ∧ u = .fail e := by
  generalize hall : said ++ [(⟨.read room, stop⟩ : Exchange Streams)] = all at h
  have hlast : (⟨.read room, stop⟩ : Exchange Streams) ∈ all := by simp [← hall]
  cases h with
  | waits pieces _ _ => exact absurd (pieces _ hlast) hstop
  | settled pieces _ => exact absurd (pieces _ hlast) hstop
  | broke pieces lacks breaks =>
    obtain ⟨rfl, hx⟩ := List.append_inj' hall rfl
    cases hx
    exact ⟨_, _, lacks, breaks, rfl⟩

/-- A reader that has come to an end after pieces alone has settled its message. -/
theorem came_ofExcept {dec : Decoder α} {result : Except Failure α} {said : Dialogue Streams}
    {left : List Arrival} (hl : Leads (Stream.run dec) said (.ofExcept result))
    (hpieces : ∀ x ∈ said, IsPiece x) (hyields : Yields d.source.arrivals (heard said) left) :
    Came dec d (.ofExcept result, d.past (heard said) left) := by
  have hreceived := Stream.leads_run hl
  generalize hu : Task.ofExcept result = u at hreceived ⊢
  cases hreceived with
  | waits => cases result <;> cases hu
  | settled _ reads => exact .settled reads hyields
  | @broke said _ room stop _ pieces lacks breaks =>
    -- the failure would be the answer to a read that brought a piece
    have hpiece : IsPiece ⟨.read room, stop⟩ := hpieces _ (by simp)
    match stop, hpiece with
    | .ok (some _), _ => cases breaks

/-- A reader that is not done asks for more of a field. -/
theorem exists_lacking {dec : Decoder α} {said : Dialogue Streams} {q : Stream.Ask}
    {next : Stream.Answer q → Task Streams α}
    (hl : Leads (Stream.run dec) said (.ask (I := Streams) q next)) :
    ∃ room, 0 < room ∧ q = .read room ∧ ∃ field, dec.parse (heard said) = .lacking field := by
  have hreceived := Stream.leads_run hl
  generalize hu : Task.ask (I := Streams) q next = u at hreceived
  cases hreceived with
  | @waits _ field room _ _ lacks hroom =>
    cases hu
    exact ⟨room, hroom, rfl, field, lacks⟩
  | @settled _ result => cases result <;> cases hu
  | broke => cases hu

/-- A reader that has heard some pieces, and what is left of the stream. -/
theorem came_of_leads {dec : Decoder α} {t : Task Streams α} {said : Dialogue Streams}
    {left : List Arrival} (hl : Leads (Stream.run dec) said t) (hpieces : ∀ x ∈ said, IsPiece x)
    (hyields : Yields d.source.arrivals (heard said) left) :
    Came dec d ((d.past (heard said) left).run t) := by
  induction t generalizing said left with
  | done a =>
    have hcame : Came dec d (.ofExcept (.ok a), _) := came_ofExcept hl hpieces hyields
    rwa [← run_ofExcept] at hcame
  | fail e =>
    have hcame : Came dec d (.ofExcept (.error e), _) := came_ofExcept hl hpieces hyields
    rwa [← run_ofExcept] at hcame
  | ask q next ih =>
    obtain ⟨room, hroom, rfl, field, hlacks⟩ := exists_lacking hl
    have hstep : ∀ a : Stream.Answer (.read room),
        Leads (Stream.run dec) (said ++ [⟨.read room, a⟩]) (next a) :=
      fun a => hl.trans (.step (.refl _))
    have hread := read_answer hroom (d.past (heard said) left)
    generalize hanswer : (d.past (heard said) left).answer (.read room) = answered at hread
    cases hread with
    | waits h =>
      rw [run_of_open hanswer, past_past, List.append_nil]
      exact .waits hlacks (by simpa using hyields.trans h)
    | @piece piece after h =>
      rw [run_of_answer hanswer, past_past]
      have hheard :
          heard (said ++ [⟨.read room, .ok (some piece)⟩]) = heard said ++ piece.bytes := by
        rw [Stream.heard_append]
        exact congrArg (heard said ++ ·) (List.append_nil piece.bytes)
      rw [← hheard]
      refine ih _ (hstep _) ?_ (by rw [hheard]; exact hyields.trans h)
      exact List.forall_mem_append.2 ⟨hpieces, List.forall_mem_singleton.2 trivial⟩
    | ended h =>
      rw [run_of_answer hanswer, past_past, List.append_nil]
      obtain ⟨field, e, lacks, breaks, hfail⟩ :=
        eq_of_breaks (Stream.leads_run (hstep (.ok none))) id
      cases breaks
      rw [hfail]
      exact .ended lacks (by simpa using hyields.trans h)
    | @broke cause after h =>
      rw [run_of_answer hanswer, past_past, List.append_nil]
      obtain ⟨field, e, lacks, breaks, hfail⟩ :=
        eq_of_breaks (Stream.leads_run (hstep (.error cause))) id
      cases breaks
      rw [hfail]
      exact .broke lacks (by simpa using hyields.trans h)

theorem came_run (dec : Decoder α) (d : Duplex) : Came dec d (d.run (Stream.run dec)) :=
  came_of_leads (.refl _) (List.forall_mem_nil _) (.refl _)

/-- A stream brings bytes, in whatever pieces, and something else behind them. -/
def Brings (d : Duplex) (bytes : Bytes) (later : List Arrival) : Prop :=
  ∃ pieces : List Bytes, d.source.arrivals = pieces.map .piece ++ later ∧ pieces.flatten = bytes

variable {dec : Decoder α} {bytes rest : Bytes} {later : List Arrival}

/-- What a stream yields is the front of the bytes that it brings, or all of them and more. -/
theorem Brings.cases_of_yields (hbrings : d.Brings bytes later) {read : Bytes}
    {left : List Arrival} (h : Yields d.source.arrivals read left) :
    (∃ pieces : List Bytes, left = pieces.map .piece ++ later ∧ bytes = read ++ pieces.flatten) ∨
      ∃ more, read = bytes ++ more ∧ Yields later more left := by
  obtain ⟨pieces, harrivals, rfl⟩ := hbrings
  rw [harrivals] at h
  exact h.of_pieces

/-- A reader that comes to something other than a piece has read all that the stream brings. -/
theorem Brings.of_stop (hbrings : d.Brings bytes later) {read : Bytes} {left : List Arrival}
    (h : Yields d.source.arrivals read left) (hstop : ∀ piece after, left ≠ .piece piece :: after) :
    ∃ more, read = bytes ++ more ∧ Yields later more left := by
  rcases hbrings.cases_of_yields h with ⟨pieces, hleft, hbytes⟩ | hmore
  · cases pieces with
    | nil => exact ⟨[], by simp [hbytes], hleft ▸ .refl _⟩
    | cons piece pieces => exact absurd hleft (hstop _ _)
  · exact hmore

/-- Bytes that settle a reading lack nothing, however they go on. -/
theorem not_lacking_of_finished {result : Except Failure α} {more : Bytes} {field : Field}
    (h : dec.parse bytes = .finished result rest) :
    dec.parse (bytes ++ more) ≠ .lacking field := by
  rw [Decoder.parse_append h more]
  nofun

/-- A reading that the bytes of a stream settle takes as many of them as it needs, and it makes no
difference what comes later. -/
theorem run_of_finished {result : Except Failure α} (hbrings : d.Brings bytes later)
    (h : dec.parse bytes = .finished result rest) :
    ∃ front left, bytes = front ++ rest ∧ Yields d.source.arrivals front left ∧
      d.run (Stream.run dec) = (.ofExcept result, d.past front left) := by
  have hcame := came_run dec d
  generalize d.run (Stream.run dec) = outcome at hcame ⊢
  cases hcame with
  | @settled front left result' reads yields =>
    rcases hbrings.cases_of_yields yields with ⟨pieces, _, hbytes⟩ | ⟨more, hfront, _⟩
    · have hparse := Decoder.parse_append reads pieces.flatten
      rw [← hbytes, h] at hparse
      cases hparse
      exact ⟨front, left, hbytes, yields, rfl⟩
    · have hparse := Decoder.parse_append h more
      rw [← hfront, reads] at hparse
      injection hparse with hresult hrest
      obtain ⟨rfl, rfl⟩ := List.append_eq_nil_iff.1 hrest.symm
      rw [List.append_nil] at hfront
      subst hresult hfront
      exact ⟨front, left, (List.append_nil front).symm, yields, rfl⟩
  | waits lacks yields =>
    obtain ⟨more, rfl, _⟩ := hbrings.of_stop yields (by simp)
    exact absurd lacks (not_lacking_of_finished h)
  | ended lacks yields =>
    obtain ⟨more, rfl, _⟩ := hbrings.of_stop yields (by simp)
    exact absurd lacks (not_lacking_of_finished h)
  | broke lacks yields =>
    obtain ⟨more, rfl, _⟩ := hbrings.of_stop yields (by simp)
    exact absurd lacks (not_lacking_of_finished h)

/-- A reading that has come to an end with the front of some bytes is settled by all of them. -/
theorem not_lacking_of_yields {field : Field} {result : Except Failure α} {front : Bytes}
    {left : List Arrival} (hbrings : d.Brings bytes later)
    (hlater : ∀ more left, Yields later more left → more = [])
    (h : dec.parse bytes = .lacking field) (yields : Yields d.source.arrivals front left) :
    dec.parse front ≠ .finished result [] := by
  intro reads
  rcases hbrings.cases_of_yields yields with ⟨pieces, _, hbytes⟩ | ⟨more, hfront, hmore⟩
  · exact not_lacking_of_finished reads (hbytes ▸ h)
  · obtain rfl := hlater _ _ hmore
    rw [hfront, List.append_nil, h] at reads
    cases reads

/-- A reading that lacks bytes of a field takes all that there are, and waits. -/
theorem run_of_lacking {field : Field} (hbrings : d.Brings bytes [])
    (h : dec.parse bytes = .lacking field) :
    ∃ room next, d.run (Stream.run dec) =
      (.ask (I := Streams) (.read room) next, d.past bytes []) := by
  have hcame := came_run dec d
  generalize d.run (Stream.run dec) = outcome at hcame ⊢
  cases hcame with
  | settled reads yields =>
    exact absurd reads (not_lacking_of_yields hbrings (fun _ _ h => h.eq_of_nil.1) h yields)
  | @waits _ _ room next _ yields =>
    obtain ⟨more, rfl, hmore⟩ := hbrings.of_stop yields (by simp)
    obtain ⟨rfl, _⟩ := hmore.eq_of_nil
    exact ⟨room, next, by rw [List.append_nil]⟩
  | ended _ yields =>
    obtain ⟨more, _, hmore⟩ := hbrings.of_stop yields (by simp)
    cases hmore.eq_of_nil.2
  | broke _ yields =>
    obtain ⟨more, _, hmore⟩ := hbrings.of_stop yields (by simp)
    cases hmore.eq_of_nil.2

/-- At the end of the stream it fails, for want of that field. -/
theorem run_of_lacking_end {field : Field} {more : List Arrival}
    (hbrings : d.Brings bytes (.finish :: more)) (h : dec.parse bytes = .lacking field) :
    d.run (Stream.run dec) = (.fail (.incomplete field), d.past bytes (.finish :: more)) := by
  have hcame := came_run dec d
  generalize d.run (Stream.run dec) = outcome at hcame ⊢
  cases hcame with
  | settled reads yields =>
    exact absurd reads (not_lacking_of_yields hbrings (fun _ _ h => h.eq_of_finish.1) h yields)
  | waits _ yields =>
    obtain ⟨_, _, hmore⟩ := hbrings.of_stop yields (by simp)
    cases hmore.eq_of_finish.2
  | @ended _ field' _ lacks yields =>
    obtain ⟨_, rfl, hmore⟩ := hbrings.of_stop yields (by simp)
    obtain ⟨rfl, hmore⟩ := hmore.eq_of_finish
    cases hmore
    rw [List.append_nil] at lacks ⊢
    rw [h] at lacks
    cases lacks
    rfl
  | broke _ yields =>
    obtain ⟨_, _, hmore⟩ := hbrings.of_stop yields (by simp)
    cases hmore.eq_of_finish.2

/-- What a reader has read when it comes to a message. -/
theorem exists_of_run_ok {a : α} {after : Duplex} (h : d.run (Stream.run dec) = (.done a, after)) :
    ∃ front left, Yields d.source.arrivals front left ∧ after = d.past front left ∧
      dec.parse front = .finished (.ok a) [] := by
  have hcame := came_run dec d
  rw [h] at hcame
  generalize hout : (Task.done a, after) = outcome at hcame
  cases hcame with
  | @settled front left result reads yields =>
    cases result with
    | ok b =>
      cases hout
      exact ⟨front, left, yields, rfl, reads⟩
    | error e => cases hout
  | waits => cases hout
  | ended => cases hout
  | broke => cases hout

end Duplex

end Socks5
