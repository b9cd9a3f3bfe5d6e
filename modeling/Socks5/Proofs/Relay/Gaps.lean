import Socks5.Proofs.Relay.Life

/-!
# Gaps in what a pipe has copied

Every byte that a pipe reads is written, lost, or still in the chunk that a loop is writing; a byte
is lost when its loop ends, by itself or because it was stopped, before the sink has taken it.
Nothing puts it back, so that a pipe which is started again goes on behind it. Main statement: the
sink has taken a prefix of what was read if nothing was written after a loss, and, as long as the
bytes that were read can be told apart, only then (`accepted_isPrefix_iff`).
-/

namespace Socks5.Pipe

/-! ## Fates -/

/-- The bytes that were written. -/
def written (fates : List (UInt8 × Fate)) : Bytes :=
  (fates.filter (·.2 = .written)).map Prod.fst

/-- No byte is written after one that was lost. -/
def Gapless (fates : List (UInt8 × Fate)) : Prop :=
  fates.Pairwise fun x y => x.2 = .lost → y.2 = .lost

@[simp] theorem written_append (fates fates' : List (UInt8 × Fate)) :
    written (fates ++ fates') = written fates ++ written fates' := by
  simp [written]

@[simp] theorem written_map_written (bytes : Bytes) :
    written (bytes.map (·, .written)) = bytes := by
  simp [written, List.filter_map, Function.comp_def]

@[simp] theorem written_map_lost (bytes : Bytes) : written (bytes.map (·, .lost)) = [] := by
  simp [written]

theorem written_eq_nil_iff {fates : List (UInt8 × Fate)} :
    written fates = [] ↔ ∀ x ∈ fates, x.2 = .lost := by
  rw [written, List.map_eq_nil_iff, List.filter_eq_nil_iff]
  constructor
  · intro h x hx
    cases hfate : x.2 with
    | lost => rfl
    | written => exact absurd (by simp [hfate]) (h x hx)
  · intro h x hx
    simp [h x hx]

theorem mem_map_of_mem_written {fates : List (UInt8 × Fate)} {b : UInt8} (h : b ∈ written fates) :
    b ∈ fates.map Prod.fst := by
  obtain ⟨x, hx, rfl⟩ := List.mem_map.1 h
  exact List.mem_map_of_mem (List.mem_filter.1 hx).1

/-- Without a gap the bytes that were written come first. -/
theorem written_isPrefix_of_gapless {fates : List (UInt8 × Fate)} (h : Gapless fates) :
    written fates <+: fates.map Prod.fst := by
  induction fates with
  | nil => exact List.prefix_rfl
  | cons x fates ih =>
    obtain ⟨b, fate⟩ := x
    obtain ⟨hx, hfates⟩ := List.pairwise_cons.1 h
    cases fate with
    | written => exact List.cons_prefix_cons.2 ⟨rfl, ih hfates⟩
    | lost =>
      rw [written_eq_nil_iff.2 (List.forall_mem_cons.2 ⟨rfl, fun y hy => hx y hy rfl⟩)]
      exact List.nil_prefix

/-- If bytes that can be told apart come first when they were written, there is no gap. -/
theorem gapless_of_written_isPrefix {fates : List (UInt8 × Fate)} {rest : Bytes}
    (hnodup : (fates.map Prod.fst ++ rest).Nodup)
    (h : written fates <+: fates.map Prod.fst ++ rest) : Gapless fates := by
  induction fates with
  | nil => exact .nil
  | cons x fates ih =>
    obtain ⟨b, fate⟩ := x
    obtain ⟨hb, hrest⟩ := List.nodup_cons.1 hnodup
    cases fate with
    | written => exact List.pairwise_cons.2 ⟨nofun, ih hrest (List.cons_prefix_cons.1 h).2⟩
    | lost =>
      -- the next byte written would have to be the one that was lost
      have hnone : written fates = [] := by
        have hprefix : written fates <+: b :: (fates.map Prod.fst ++ rest) := h
        cases hw : written fates with
        | nil => rfl
        | cons c more =>
          rw [hw] at hprefix
          obtain rfl : c = b := (List.cons_prefix_cons.1 hprefix).1
          have hmem : c ∈ written fates := by
            rw [hw]
            exact List.mem_cons_self
          exact absurd (List.mem_append_left _ (mem_map_of_mem_written hmem)) hb
      have hlost := written_eq_nil_iff.1 hnone
      exact List.pairwise_cons.2 ⟨fun y hy _ => hlost y hy,
        List.pairwise_of_forall_mem_list fun x _ y hy _ => hlost y hy⟩

/-! ## Books -/

/-- The books on a pipe's ends balance: what has arrived has met its fate, or is unwritten, or is
still to be read, and the sink has taken what was written. -/
structure Balances (arrived : Bytes) (fates : List (UInt8 × Fate)) (unwritten : Bytes) (e : Ends) :
    Prop where
  arrives : fates.map Prod.fst ++ unwritten ++ e.source.pending = arrived
  reads : e.source.consumed = (fates.map Prod.fst ++ unwritten).length
  writes : e.sink.accepted = written fates

/-- The books on the ends in a place, unless they are lost. -/
def Books (arrived : Bytes) (fates : List (UInt8 × Fate)) (place : Place) : Prop :=
  ∀ e, place.ends? = some e → Balances arrived fates place.unwritten e

theorem books_new (arrivals : List Arrival) (intake : Intake) :
    Books (arrivals.flatMap Arrival.bytes) [] (.slot ⟨⟨arrivals, 0⟩, .empty intake⟩) := by
  intro _ hp
  obtain ⟨⟩ := hp
  exact ⟨rfl, rfl, rfl⟩

variable {arrived : Bytes} {fates : List (UInt8 × Fate)} {place place' : Place}

/-- A loop that goes on keeps the books. -/
theorem Books.goesOn {l l' : CopyLoop} {bufferSize : Nat} {report : Option PipeEvent}
    (h : Books arrived fates (.held l)) (hstep : l.step bufferSize = .goesOn l' report) :
    Books arrived (fates ++ l.fates) (.held l') := by
  obtain ⟨harrives, hreads, hwrites⟩ := h l.ends rfl
  have hstepped := l.stepped bufferSize
  rw [hstep] at hstepped
  intro _ hp
  obtain ⟨⟩ := hp
  cases hstepped with
  | @reads piece source phase read =>
    have hunwritten : l.unwritten = [] := by rw [CopyLoop.unwritten, phase]
    have hfates : l.fates = [] := by rw [CopyLoop.fates, phase]
    have hpending := Source.handed_append_pending bufferSize l.ends.source
    have hconsumed := Source.consumed_read bufferSize l.ends.source
    rw [read] at hpending hconsumed
    simp only [Place.unwritten, hunwritten, List.append_nil] at harrives hreads
    rw [hfates, List.append_nil]
    refine ⟨?_, ?_, hwrites⟩
    · rw [← harrives, ← hpending, List.append_assoc]
      rfl
    · show source.consumed = _
      rw [hconsumed, hreads, List.length_append]
      rfl
  | @writes size rest count sink phase write takes =>
    have hunwritten : l.unwritten = rest := by rw [CopyLoop.unwritten, phase]
    have hfates : l.fates = (rest.take count.val).map (·, .written) := by
      simp only [CopyLoop.fates, phase, write, takes, ↓reduceIte]
    have haccepted := Sink.accepted_write rest l.ends.sink
    rw [write] at haccepted
    have htotal : (fates ++ l.fates).map Prod.fst ++ rest.drop count.val =
        fates.map Prod.fst ++ rest := by
      rw [hfates, List.map_append, List.map_map, List.append_assoc]
      show _ ++ ((rest.take count.val).map id ++ rest.drop count.val) = _
      rw [List.map_id, List.take_append_drop]
    simp only [Place.unwritten, hunwritten] at harrives hreads
    simp only [Place.unwritten, CopyLoop.unwritten_left]
    refine ⟨by rw [htotal]; exact harrives, by rw [htotal]; exact hreads, ?_⟩
    rw [hfates, written_append, written_map_written, ← hwrites]
    exact haccepted
  | @flushes size phase flush =>
    have hunwritten : l.unwritten = [] := by rw [CopyLoop.unwritten, phase]
    have hfates : l.fates = [] := by rw [CopyLoop.fates, phase]
    simp only [Place.unwritten, hunwritten] at harrives hreads
    rw [hfates, List.append_nil]
    exact ⟨harrives, hreads, hwrites⟩

/-- Bytes that were not written when their loop ends are lost. -/
theorem Books.loses {l : CopyLoop} {e : Ends} (h : Books arrived fates (.held l))
    (hsource : e.source.pending = l.ends.source.pending)
    (hconsumed : e.source.consumed = l.ends.source.consumed)
    (hsink : e.sink.accepted = l.ends.sink.accepted) :
    Books arrived (fates ++ l.losses) (.slot e) := by
  obtain ⟨harrives, hreads, hwrites⟩ := h l.ends rfl
  have htotal : (fates ++ l.losses).map Prod.fst = fates.map Prod.fst ++ l.unwritten := by
    rw [CopyLoop.losses, List.map_append, List.map_map]
    exact congrArg _ (List.map_id _)
  intro _ hp
  obtain ⟨⟩ := hp
  refine ⟨?_, ?_, ?_⟩
  · rw [htotal, hsource]
    simpa [Place.unwritten] using harrives
  · rw [htotal, hconsumed]
    simpa [Place.unwritten] using hreads
  · rw [hsink, hwrites, CopyLoop.losses, written_append, written_map_lost, List.append_nil]

/-- The last step of a loop keeps the books. -/
theorem Books.ends {l l' : CopyLoop} {bufferSize : Nat} {failure : Option IoFailure}
    (h : Books arrived fates (.held l)) (hstep : l.step bufferSize = .ends l' failure) :
    Books arrived (fates ++ l.fates) (.slot l'.ends) := by
  have hstepped := l.stepped bufferSize
  rw [hstep] at hstepped
  have hread : ∀ {answer source}, l.phase = .reading →
      l.ends.source.read bufferSize = (answer, source) → Source.handed answer = [] →
      Books arrived (fates ++ l.fates) (.slot { l.ends with source }) := by
    intro answer source hphase hread hhanded
    have hfates : l.fates = l.losses := by
      simp only [CopyLoop.fates, CopyLoop.losses, CopyLoop.unwritten, hphase, List.map_nil]
    have hpending := Source.handed_append_pending bufferSize l.ends.source
    have hconsumed := Source.consumed_read bufferSize l.ends.source
    rw [hread, hhanded] at hpending hconsumed
    rw [hfates]
    exact h.loses hpending hconsumed rfl
  have hwrite : ∀ {size rest answer sink}, l.phase = .writing size rest →
      l.ends.sink.write rest = (answer, sink) → Sink.taken answer = 0 → answer ≠ none →
      Books arrived (fates ++ l.fates) (.slot { l.ends with sink }) := by
    intro size rest answer sink hphase hwrite htaken hanswer
    have hfates : l.fates = l.losses := by
      simp only [CopyLoop.fates, CopyLoop.losses, CopyLoop.unwritten, hphase, hwrite]
      cases answer with
      | none => exact absurd rfl hanswer
      | some answer =>
        cases answer with
        | error cause => rfl
        | ok count => exact if_pos htaken
    have haccepted := Sink.accepted_write rest l.ends.sink
    rw [hwrite, htaken, List.take_zero, List.append_nil] at haccepted
    rw [hfates]
    exact h.loses rfl rfl haccepted
  cases hstepped with
  | drains phase read => exact hread phase read rfl
  | breaks phase read => exact hread phase read rfl
  | refuses phase write takes => exact hwrite phase write takes (Option.some_ne_none _)
  | fails phase write => exact hwrite phase write rfl (Option.some_ne_none _)
  | sticks phase flush =>
    have hfates : l.fates = l.losses := by
      simp only [CopyLoop.fates, CopyLoop.losses, CopyLoop.unwritten, phase, List.map_nil]
    rw [hfates]
    exact h.loses rfl rfl rfl

/-- Whatever happens, the books are kept. -/
theorem Books.moves (h : Books arrived fates place) {arrivals : List Arrival}
    {met : List (UInt8 × Fate)} (hmoves : Moves place arrivals met place') :
    Books (arrived ++ arrivals.flatMap Arrival.bytes) (fates ++ met) place' := by
  have hnothing : arrived ++ ([] : List Arrival).flatMap Arrival.bytes = arrived :=
    List.append_nil _
  cases hmoves with
  | stays => rwa [hnothing, List.append_nil]
  | taken ends id =>
    rw [hnothing, List.append_nil]
    exact h
  | lost ends =>
    intro _ hp
    obtain ⟨⟩ := hp
  | told l =>
    rw [hnothing, List.append_nil]
    exact h
  | goesOn step =>
    rw [hnothing]
    exact h.goesOn step
  | ends step =>
    rw [hnothing]
    exact h.ends step
  | givesUp told =>
    rw [hnothing]
    exact h.loses rfl rfl rfl
  | released ends =>
    rw [hnothing, List.append_nil]
    exact h
  | fed place arrivals =>
    intro e he
    rw [Place.ends?_update] at he
    obtain ⟨e', he', rfl⟩ := Option.map_eq_some_iff.1 he
    obtain ⟨harrives, hreads, hwrites⟩ := h e' he'
    rw [List.append_nil, Place.unwritten_update]
    refine ⟨?_, hreads, hwrites⟩
    rw [Source.pending_feed, ← harrives, List.append_assoc _ e'.source.pending]
  | ruled place rule =>
    intro e he
    rw [Place.ends?_update] at he
    obtain ⟨e', he', rfl⟩ := Option.map_eq_some_iff.1 he
    obtain ⟨harrives, hreads, hwrites⟩ := h e' he'
    rw [hnothing, List.append_nil, Place.unwritten_update]
    exact ⟨harrives, hreads, hwrites⟩

/-- The bytes that arrive in a part of the life of a pipe. -/
def arrivedIn (acts : List Act) : Bytes :=
  acts.flatMap fun a => a.arrivals.flatMap Arrival.bytes

theorem Books.after {p : Pipe} (hat : p.IsAt place) (h : Books arrived fates place)
    (acts : List Act) :
    ∃ place', (p.after acts).IsAt place' ∧
      Books (arrived ++ arrivedIn acts) (fates ++ p.fates acts) place' := by
  induction acts generalizing p place arrived fates with
  | nil => exact ⟨place, hat, by simpa [arrivedIn, Pipe.fates] using h⟩
  | cons a acts ih =>
    obtain ⟨place', hat', hmoves⟩ := hat.act a
    obtain ⟨place'', hat'', h''⟩ := ih hat' (h.moves hmoves)
    refine ⟨place'', hat'', ?_⟩
    rw [List.append_assoc, List.append_assoc] at h''
    exact h''

/-! ## No loss without a gap -/

/-- The bytes that a pipe has read are written, lost or in progress, in their order. The sink has
taken those that were written. They come first if none of them was written after a loss, and, as
long as the bytes that were read can be told apart, only then. -/
theorem accepted_isPrefix_iff (bufferSize : Nat) (arrivals : List Arrival) (intake : Intake)
    (acts : List Act) {e : Ends}
    (he : ((new bufferSize ⟨⟨arrivals, 0⟩, .empty intake⟩).after acts).ends? = some e) :
    let p := new bufferSize ⟨⟨arrivals, 0⟩, .empty intake⟩
    let read := (arrivals.flatMap Arrival.bytes ++ arrivedIn acts).take e.source.consumed
    read = (p.fates acts).map Prod.fst ++ (p.after acts).unwritten ∧
      e.sink.accepted = written (p.fates acts) ∧
      (Gapless (p.fates acts) → e.sink.accepted <+: read) ∧
      (read.Nodup → e.sink.accepted <+: read → Gapless (p.fates acts)) := by
  intro p read
  obtain ⟨place, hat, h⟩ := Books.after (isAt_new bufferSize _) (books_new arrivals intake) acts
  rw [hat.ends?_eq] at he
  obtain ⟨harrives, hreads, hwrites⟩ := h e he
  have hread : read = (p.fates acts).map Prod.fst ++ (p.after acts).unwritten := by
    show List.take e.source.consumed _ = _
    rw [← harrives, List.nil_append, hat.unwritten_eq]
    exact List.take_left' hreads.symm
  rw [List.nil_append] at hwrites
  refine ⟨hread, hwrites, ?_, ?_⟩
  · intro hgapless
    rw [hwrites, hread]
    exact (written_isPrefix_of_gapless hgapless).trans (List.prefix_append _ _)
  · intro hnodup hprefix
    rw [hread] at hnodup hprefix
    rw [hwrites] at hprefix
    exact gapless_of_written_isPrefix hnodup hprefix

/-- A pipe with a buffer of two bytes, whose sink has room for one. -/
def narrowPipe : Pipe := new 2 ⟨⟨[], 0⟩, .empty { limit := some 1 }⟩

/-- It is stopped while the second of three bytes waits, and started again when there is room. -/
def interruptedLife : List Act :=
  [.start, .feed [.piece [1, 2, 3]], .advance 1, .advance 1, .stop .begun, .abandon 1,
    .setIntake {}, .start, .advance 2, .advance 2]

/-- Before it is stopped, the sink has taken the first of the two bytes that were read. -/
theorem accepted_isPrefix_before_stop :
    ∃ e, (narrowPipe.after (interruptedLife.take 4)).ends? = some e ∧
      Gapless (narrowPipe.fates (interruptedLife.take 4)) ∧ e.source.consumed = 2 ∧
      e.sink.accepted <+: (arrivedIn (interruptedLife.take 4)).take 2 := by
  have hgapless : Gapless (narrowPipe.fates (interruptedLife.take 4)) := by
    unfold Gapless
    decide
  have hprefix := (accepted_isPrefix_iff 2 [] { limit := some 1 } _ rfl).2.2.1 hgapless
  exact ⟨_, rfl, hgapless, rfl, hprefix⟩

/-- The byte that waited when the pipe was stopped is missing in the end. -/
theorem not_isPrefix_after_stop :
    ∃ e, (narrowPipe.after interruptedLife).ends? = some e ∧
      ¬ e.sink.accepted <+: (arrivedIn interruptedLife).take e.source.consumed :=
  ⟨_, rfl, by decide⟩

end Socks5.Pipe
