import Socks5.Proofs.Relay.Coupling

/-!
# What a relay delivers

What a sink has taken stays taken, and a direction that has stopped by itself and without a failure
has delivered its stream to the end. Main statements: each pipe of a relay lives the life of a pipe
(`exists_pipe_after`), so that a side takes more and more (`accepted_isPrefix_after`); and where a
relay is about to hear that a direction has stopped, and that direction told of no failure, nothing
is left to deliver, whatever may still arrive (`delivered_of_stopped`).
-/

namespace Socks5

/-! ## Sinks that take more -/

namespace CopyLoop

variable {l l' : CopyLoop} {bufferSize : Nat}

theorem accepted_write_isPrefix {sink sink' : Sink} {bytes : Bytes}
    {answer : Option (Except IoFailure (Fin (bytes.length + 1)))}
    (h : sink.write bytes = (answer, sink')) : sink.accepted <+: sink'.accepted := by
  have haccepted := Sink.accepted_write bytes sink
  rw [h] at haccepted
  exact ⟨_, haccepted.symm⟩

theorem accepted_of_goesOn {report : Option PipeEvent}
    (h : l.step bufferSize = .goesOn l' report) :
    l.ends.sink.accepted <+: l'.ends.sink.accepted := by
  have hstepped := l.stepped bufferSize
  rw [h] at hstepped
  cases hstepped with
  | reads phase read => exact List.prefix_rfl
  | writes phase write takes => exact accepted_write_isPrefix write
  | flushes phase flush => exact List.prefix_rfl

theorem accepted_of_ends {failure : Option IoFailure} (h : l.step bufferSize = .ends l' failure) :
    l.ends.sink.accepted <+: l'.ends.sink.accepted := by
  have hstepped := l.stepped bufferSize
  rw [h] at hstepped
  cases hstepped with
  | drains phase read => exact List.prefix_rfl
  | breaks phase read => exact List.prefix_rfl
  | refuses phase write takes => exact accepted_write_isPrefix write
  | fails phase write => exact accepted_write_isPrefix write
  | sticks phase flush => exact List.prefix_rfl

end CopyLoop

namespace Pipe

variable {p : Pipe} {place place' : Place}

/-- Ends that are not lost were not lost before, and what their sink had taken is still there. -/
theorem Moves.accepted_isPrefix {arrivals : List Arrival} {fates : List (UInt8 × Fate)} {e' : Ends}
    (h : Moves place arrivals fates place') (he' : place'.ends? = some e') :
    ∃ e, place.ends? = some e ∧ e.sink.accepted <+: e'.sink.accepted := by
  cases h with
  | stays place => exact ⟨e', he', List.prefix_rfl⟩
  | taken ends id => exact ⟨ends, rfl, (Option.some.inj he') ▸ List.prefix_rfl⟩
  | lost ends => cases he'
  | told l => exact ⟨l.ends, rfl, (Option.some.inj he') ▸ List.prefix_rfl⟩
  | goesOn step =>
    obtain rfl := Option.some.inj he'
    exact ⟨_, rfl, CopyLoop.accepted_of_goesOn step⟩
  | ends step =>
    obtain rfl := Option.some.inj he'
    exact ⟨_, rfl, CopyLoop.accepted_of_ends step⟩
  | @givesUp l told => exact ⟨l.ends, rfl, (Option.some.inj he') ▸ List.prefix_rfl⟩
  | released ends => exact ⟨ends, rfl, (Option.some.inj he') ▸ List.prefix_rfl⟩
  | fed place arrivals =>
    rw [Place.ends?_update, Option.map_eq_some_iff] at he'
    obtain ⟨e, he, rfl⟩ := he'
    exact ⟨e, he, List.prefix_rfl⟩
  | ruled place rule =>
    rw [Place.ends?_update, Option.map_eq_some_iff] at he'
    obtain ⟨e, he, rfl⟩ := he'
    exact ⟨e, he, List.prefix_rfl⟩

theorem IsAt.accepted_after {e' : Ends} (h : p.IsAt place) (acts : List Act)
    (he' : (p.after acts).ends? = some e') :
    ∃ e, p.ends? = some e ∧ e.sink.accepted <+: e'.sink.accepted := by
  induction acts generalizing p place with
  | nil => exact ⟨e', he', List.prefix_rfl⟩
  | cons a acts ih =>
    obtain ⟨middle, hmiddle, hmoves⟩ := h.act a
    obtain ⟨f, hf, hprefix⟩ := ih hmiddle he'
    rw [hmiddle.ends?_eq] at hf
    obtain ⟨e, he, hprefix'⟩ := hmoves.accepted_isPrefix hf
    exact ⟨e, h.ends?_eq.trans he, hprefix'.trans hprefix⟩

end Pipe

namespace Relay

variable {bufferSize : Nat} {client target : Duplex} {arrived : Side → List Arrival}
  {reports : List Report} {shut : Side → Nat} {r : Relay}

/-! ## The pipes of a relay -/

/-- What happens to a relay happens to one of its pipes, or to both, or leaves them alone. -/
theorem exists_pipe_act (hat : ∀ d, ∃ place, (r.pipe d).IsAt place) (a : Act) (d : Direction) :
    ∃ acts, (r.act a).pipe d = (r.pipe d).after acts := by
  -- What is put back is one of the two pipes after an act of its own.
  have hput : ∀ (r' : Relay) {d' : Direction} {q : Pipe} (act : Pipe.Act),
      (∀ d, r'.pipe d = r.pipe d) → q = (r.pipe d').act act →
      ∃ acts, (r'.putPipe d' q).pipe d = (r.pipe d).after acts := by
    intro r' d' q act hsame hq
    rw [pipe_putPipe]
    by_cases hd : d = d'
    · rw [if_pos hd, hq, ← hd]
      exact ⟨[act], rfl⟩
    · rw [if_neg hd, hsame]
      exact ⟨[], rfl⟩
  cases a with
  | feed side arrivals =>
    rw [act_feed_eq hat]
    exact hput _ (.feed arrivals) (pipe_wake r side) rfl
  | setIntake side rule =>
    rw [act_setIntake_eq hat]
    exact hput _ (.setIntake rule) (pipe_wake r side) rfl
  | turn isClosed turn =>
    show ∃ acts, ((r.step isClosed turn).getD r).pipe d = _
    cases hstep : r.step isClosed turn with
    | none => exact ⟨[], rfl⟩
    | some r' =>
      rw [Option.getD_some]
      cases turn with
      | advance d' loop =>
        obtain ⟨q, hq, rfl⟩ := Option.map_eq_some_iff.1 hstep
        exact hput r (.advance loop) (fun _ => rfl) (by rw [Pipe.act, hq, Option.getD_some])
      | abandon d' loop =>
        obtain ⟨q, hq, rfl⟩ := Option.map_eq_some_iff.1 hstep
        exact hput r (.abandon loop) (fun _ => rfl) (by rw [Pipe.act, hq, Option.getD_some])
      | hear => exact ⟨[], pipe_of_hear hstep d⟩
      | noticeClosed =>
        simp only [step, Option.ite_none_right_eq_some, Option.some.injEq] at hstep
        obtain ⟨_, rfl⟩ := hstep
        refine ⟨[], ?_⟩
        cases d <;> rfl
      | finish => exact ⟨[], pipe_of_finish hstep d⟩
      | close d' =>
        have hstep : r.closePipe d' = some r' := hstep
        unfold Relay.closePipe at hstep
        split at hstep
        case h_2 => cases hstep
        case h_1 out back hstage =>
          cases d' with
          | outward =>
            obtain ⟨⟨q, call⟩, hclose, rfl⟩ := Option.map_eq_some_iff.1 hstep
            have hq : q = (r.pipe .outward).act (.close out) := by
              rw [Pipe.act, pipe, hclose, Option.map_some, Option.getD_some]
            obtain ⟨acts, hacts⟩ := hput r (.close out) (fun _ => rfl) hq
            exact ⟨acts, hacts ▸ by cases d <;> rfl⟩
          | inward =>
            obtain ⟨⟨q, call⟩, hclose, rfl⟩ := Option.map_eq_some_iff.1 hstep
            have hq : q = (r.pipe .inward).act (.close back) := by
              rw [Pipe.act, pipe, hclose, Option.map_some, Option.getD_some]
            obtain ⟨acts, hacts⟩ := hput r (.close back) (fun _ => rfl) hq
            exact ⟨acts, hacts ▸ by cases d <;> rfl⟩

/-- Each pipe of a relay lives the life of a pipe. -/
theorem Coupled.exists_pipe_after (h : Coupled bufferSize client target arrived reports shut r)
    (acts : List Act) (d : Direction) :
    ∃ acts', (r.after acts).pipe d = (r.pipe d).after acts' := by
  induction acts generalizing r arrived reports shut with
  | nil => exact ⟨[], rfl⟩
  | cons a acts ih =>
    obtain ⟨acts₁, h₁⟩ := exists_pipe_act (fun d => (h.runs d).exists_isAt) a d
    obtain ⟨acts₂, h₂⟩ := ih (h.act a)
    exact ⟨acts₁ ++ acts₂, by rw [after_cons, h₂, h₁, Pipe.after_append]⟩

/-- Where there is no buffer of that size, nothing is left of the streams. -/
theorem Coupled.accepted_of_exceeds
    (h : Coupled bufferSize client target arrived reports shut r) (side : Side)
    (hexceeds : Pipe.maxBuffer < bufferSize) : (r.stream side).sink.accepted = [] := by
  rw [stream, (h.runs side.writing).ends?_of_exceeds hexceeds]
  rfl

/-- What a side has taken it has taken for good. -/
theorem Coupled.accepted_isPrefix_after
    (h : Coupled bufferSize client target arrived reports shut r) (acts : List Act)
    (side : Side) :
    (r.stream side).sink.accepted <+: ((r.after acts).stream side).sink.accepted := by
  by_cases hfits : bufferSize ≤ Pipe.maxBuffer
  · -- The sink of a side is in the ends of the one pipe that writes to it.
    obtain ⟨place, hplace⟩ := (h.runs side.writing).exists_isAt
    obtain ⟨acts', hacts'⟩ := h.exists_pipe_after acts side.writing
    obtain ⟨e', w, rest, he', _⟩ := ((h.after acts).runs side.writing).exists_carries hfits
    obtain ⟨e, he, hprefix⟩ := hplace.accepted_after acts' (hacts' ▸ he')
    rw [stream, stream, he, he']
    exact hprefix
  · rw [h.accepted_of_exceeds side (by omega)]
    exact List.nil_prefix

/-! ## Directions that have stopped -/

/-- A relay is about to hear, while it listens, that a direction has stopped. -/
def HearsStop (r : Relay) (d : Direction) : Prop :=
  r.stage = .listening ∧ ∃ total, r.channel.head? = some (d, .stopped total)

/-- No pipe of a relay has told of a failure. -/
def IsFaultless (r : Relay) : Prop := ∀ d, ∀ e ∈ (r.pipe d).events, e.cause? = none

/-- A relay without failures has had none before. -/
theorem Coupled.isFaultless_of_after (h : Coupled bufferSize client target arrived reports shut r)
    {acts : List Act} (hfaultless : (r.after acts).IsFaultless) : r.IsFaultless := by
  intro d e he
  refine hfaultless d e ?_
  rw [← (h.after acts).tells, reportsOf_append, h.tells]
  exact List.mem_append_left _ he

/-- A direction that has stopped by itself and without a failure has delivered its stream to the
end, whatever may still arrive. -/
theorem Coupled.delivered_of_stopped (h : Coupled bufferSize client target arrived reports shut r)
    {d : Direction} (hstops : r.HearsStop d) (hfaultless : r.IsFaultless) :
    ∃ w, (r.stream d.sink).sink.accepted = (base client target d).sink.accepted ++ w ∧
      ∀ more, Source.streamed ((base client target d).source.arrivals ++ arrived d.source ++ more) =
        w := by
  obtain ⟨hstage, total, hhead⟩ := hstops
  have hstopped : .stopped total ∈ (r.pipe d).events := by
    obtain ⟨heard, _, hreports⟩ := h.hears
    have hmem : (d, .stopped total) ∈ r.channel := List.mem_of_head? hhead
    rw [← h.tells, hreports, reportsOf_append]
    refine List.mem_append_right _ (List.mem_map.2 ⟨_, List.mem_filter.2 ⟨hmem, ?_⟩, rfl⟩)
    exact decide_eq_true rfl
  have hrun := h.runs d
  rw [hstage] at hrun
  -- Of the runs of a pipe that nobody closes, only one whose loop is over reports a stop.
  cases hrun with
  | copies fits place id spawned books reports expects =>
    rw [reports] at hstopped
    simp [Pipe.copying] at hstopped
  | lost exceeds place reports =>
    rw [reports] at hstopped
    simp [Pipe.copying] at hstopped
  | @ended e w rest sizes failure _ fits place books reports drained more =>
    have hnone : failure = none := by
      cases failure with
      | none => rfl
      | some cause =>
        have hcause := hfaultless d (.failed cause) (by rw [reports]; simp [Pipe.copied])
        cases hcause
    obtain ⟨rfl, hend⟩ := drained rfl hnone
    refine ⟨w, ?_, fun more => ?_⟩
    · rw [stream, d.writing_sink, place.ends?_eq]
      exact books.writes
    · rw [books.passes more, hend.streamed_append, List.append_nil, List.append_nil]

end Relay

end Socks5
