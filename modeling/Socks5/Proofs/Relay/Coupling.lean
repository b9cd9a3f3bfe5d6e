import Socks5.Proofs.Relay.Single
import Socks5.Relay.Coupled

/-!
# The life of a relay

Loops, calls and the relay itself take their steps in any order, something happens at the two
streams in between, and at any of these steps the session may be closed. Each of the two pipes has
one run, and all that it reports goes through the channel once. Main statements: what holds at all
times (`Coupled.after`); and what a relay has come to when it is done (`outcome_after`): both loops
are over, each stream was shut once, each side has taken the front of what was read from the other
one, and the outcome is the first failure that was reported or the sums of what was transferred,
unless there was no buffer of that size.
-/

namespace Socks5

@[simp] theorem Direction.reading_source (d : Direction) : d.source.reading = d := by
  cases d <;> rfl

@[simp] theorem Direction.writing_sink (d : Direction) : d.sink.writing = d := by cases d <;> rfl

@[simp] theorem Side.source_reading (side : Side) : side.reading.source = side := by
  cases side <;> rfl

@[simp] theorem Side.sink_writing (side : Side) : side.writing.sink = side := by
  cases side <;> rfl

theorem Side.writing_ne_reading (side : Side) : side.writing ≠ side.reading := by
  cases side <;> exact nofun

/-- A report in the channel of a relay. -/
abbrev Report := Direction × PipeEvent

/-- The call that closes the pipe of a direction, once a relay has come to a stage. -/
def RelayStage.call : RelayStage → Direction → Pipe.CloseCall
  | .listening, _ => .stopping .begun
  | .closing out _, .outward => out
  | .closing _ back, .inward => back
  | .done, _ => .returned

/-- The number of a direction. -/
def RelayStats.of (s : RelayStats) : Direction → Nat
  | .outward => s.outward
  | .inward => s.inward

namespace Relay

/-! ## Acts -/

/-- What may happen to a relay at one time: it takes a step of its own, while its session is open or
closed, something arrives at a side, or a side takes bytes by another rule. -/
inductive Act where
  | turn (isClosed : Bool) (turn : RelayTurn)
  | feed (side : Side) (arrivals : List Arrival)
  | setIntake (side : Side) (rule : Intake)

/-- What arrives at a side. -/
def Act.arrivals (side : Side) : Act → List Arrival
  | .feed side' arrivals => if side' = side then arrivals else []
  | .turn _ _ | .setIntake _ _ => []

/-- A relay after something has happened. A step that cannot be taken changes nothing. -/
def act (r : Relay) : Act → Relay
  | .turn isClosed turn => (r.step isClosed turn).getD r
  | .feed side arrivals => r.updateStream side fun d => { d with source := d.source.feed arrivals }
  | .setIntake side rule =>
    r.updateStream side fun d => { d with sink := { d.sink with intake := rule } }

/-- A relay after a part of its life. -/
def after (r : Relay) (acts : List Act) : Relay := acts.foldl act r

/-- Steps that a relay takes in a row. -/
def turns (isClosed : Bool) (ts : List RelayTurn) : List Act := ts.map (.turn isClosed)

/-- What arrives at a side in a part of the life of a relay. -/
def arrivedAt (side : Side) (acts : List Act) : List Arrival := acts.flatMap (Act.arrivals side)

/-- What the pipe of a direction reports from one moment to the next. -/
def news (r r' : Relay) (d : Direction) : List Report :=
  ((r'.pipe d).events.drop (r.pipe d).events.length).map (d, ·)

/-- What is reported in a part of the life of a relay. -/
def reported (r : Relay) : List Act → List Report
  | [] => []
  | a :: acts =>
    r.news (r.act a) .outward ++ r.news (r.act a) .inward ++ (r.act a).reported acts

/-- Whether the stream of a side is shut when something happens: the pipe that writes it is being
closed, and its ends are taken out of the slot. -/
def shutsIn (r : Relay) (side : Side) : Act → Bool
  | .turn isClosed (.close d) =>
    d.sink = side && (r.pipe d).slot.isSome &&
      ((r.act (.turn isClosed (.close d))).pipe d).slot.isNone
  | _ => false

/-- How often the stream of a side is shut in a part of the life of a relay. -/
def shuttings (r : Relay) (side : Side) : List Act → Nat
  | [] => 0
  | a :: acts => (r.shutsIn side a).toNat + (r.act a).shuttings side acts

@[simp] theorem after_nil (r : Relay) : r.after [] = r := rfl

@[simp] theorem after_cons (r : Relay) (a : Act) (acts : List Act) :
    r.after (a :: acts) = (r.act a).after acts := rfl

theorem after_append (r : Relay) (acts acts' : List Act) :
    r.after (acts ++ acts') = (r.after acts).after acts' := List.foldl_append

/-! ## Reports -/

/-- The reports of a direction. -/
def reportsOf (d : Direction) (reports : List Report) : List PipeEvent :=
  (reports.filter (·.1 = d)).map Prod.snd

/-- The numbers of bytes that reports come to. -/
def statsOf (reports : List Report) : RelayStats :=
  reports.foldl (fun s x => (x.2.total?.map (s.record · x.1)).getD s) {}

/-- The first failure among reports. -/
def failureOf (reports : List Report) : Option IoFailure :=
  reports.findSome? fun x => x.2.cause?

/-- How many bytes were transferred in a direction. -/
def transferred (d : Direction) (reports : List Report) : Nat :=
  ((reportsOf d reports).map PipeEvent.size).sum

@[simp] theorem reportsOf_append (d : Direction) (reports reports' : List Report) :
    reportsOf d (reports ++ reports') = reportsOf d reports ++ reportsOf d reports' := by
  simp [reportsOf]

@[simp] theorem reportsOf_map (d d' : Direction) (events : List PipeEvent) :
    reportsOf d (events.map (d', ·)) = if d' = d then events else [] := by
  by_cases h : d' = d <;> simp [reportsOf, List.filter_map, Function.comp_def, h]

/-- The number of a direction is the last total that was reported for it. -/
theorem of_statsOf (d : Direction) (reports : List Report) :
    (statsOf reports).of d =
      Pipe.lastTotal (reportsOf d reports) := by
  have hfold : ∀ s : RelayStats,
      (reports.foldl (fun s x => (x.2.total?.map (s.record · x.1)).getD s) s).of d =
        (reportsOf d reports).foldl (fun n e => e.total?.getD n) (s.of d) := by
    induction reports with
    | nil => exact fun _ => rfl
    | cons x reports ih =>
      intro s
      obtain ⟨d', e⟩ := x
      rw [List.foldl_cons, ih]
      cases d <;> cases d' <;> cases e <;> rfl
  rw [statsOf, hfold, Pipe.lastTotal]
  cases d <;> rfl

@[simp] theorem pipe_note (r : Relay) (x : Report) (d : Direction) :
    (r.note x).pipe d = r.pipe d := by
  obtain ⟨d', e⟩ := x
  cases e <;> rfl

@[simp] theorem channel_note (r : Relay) (x : Report) : (r.note x).channel = r.channel := by
  obtain ⟨d', e⟩ := x
  cases e <;> rfl

@[simp] theorem stage_note (r : Relay) (x : Report) : (r.note x).stage = r.stage := by
  obtain ⟨d', e⟩ := x
  cases e <;> rfl

theorem pipe_foldl_note (xs : List Report) (r : Relay) (d : Direction) :
    (xs.foldl note r).pipe d = r.pipe d := by
  induction xs generalizing r with
  | nil => rfl
  | cons x xs ih => rw [List.foldl_cons, ih, pipe_note]

/-- What a relay has heard shows in its numbers and in its failure. -/
structure Heard (r : Relay) (heard : List Report) : Prop where
  stats : r.stats = statsOf heard
  failure : r.failure = failureOf heard

theorem Heard.note {r : Relay} {heard : List Report} (h : r.Heard heard) (x : Report) :
    (r.note x).Heard (heard ++ [x]) := by
  obtain ⟨hstats, hfailure⟩ := h
  obtain ⟨d, e⟩ := x
  constructor
  · rw [statsOf, List.foldl_append, ← statsOf, ← hstats]
    cases e <;> rfl
  · rw [failureOf, List.findSome?_append, ← failureOf, ← hfailure]
    cases e with
    | failed cause =>
      show (r.failure.orElse fun _ => some cause) = _
      cases r.failure <;> rfl
    | _ => exact (Option.or_none).symm

theorem Heard.notes {r : Relay} {heard : List Report} (h : r.Heard heard) (xs : List Report) :
    (xs.foldl Relay.note r).Heard (heard ++ xs) := by
  induction xs generalizing r heard with
  | nil => rwa [List.append_nil]
  | cons x xs ih =>
    rw [List.append_cons]
    exact ih (h.note x)

/-! ## Pipes -/

theorem pipe_putPipe (r : Relay) (d d' : Direction) (p : Pipe) :
    (r.putPipe d p).pipe d' = if d' = d then p else r.pipe d' := by
  cases d <;> cases d' <;> rfl

@[simp] theorem stage_putPipe (r : Relay) (d : Direction) (p : Pipe) :
    (r.putPipe d p).stage = r.stage := by
  cases d <;> rfl

@[simp] theorem stats_putPipe (r : Relay) (d : Direction) (p : Pipe) :
    (r.putPipe d p).stats = r.stats := by
  cases d <;> rfl

@[simp] theorem failure_putPipe (r : Relay) (d : Direction) (p : Pipe) :
    (r.putPipe d p).failure = r.failure := by
  cases d <;> rfl

/-- What a pipe has reported since goes to the channel. -/
theorem channel_putPipe (r : Relay) {d : Direction} {p : Pipe} (news : List PipeEvent)
    (h : p.events = (r.pipe d).events ++ news) :
    (r.putPipe d p).channel = r.channel ++ news.map (d, ·) := by
  have hreports : p.reports = news.reverse ++ (r.pipe d).reports := by
    have h := congrArg List.reverse h
    simpa [Pipe.events] using h
  have hnews : p.reports.take (p.reports.length - (r.pipe d).reports.length) = news.reverse := by
    rw [hreports]
    exact List.take_left' (by simp)
  have hchannel : (r.putPipe d p).channel = r.channel ++
      (p.reports.take (p.reports.length - (r.pipe d).reports.length)).reverse.map (d, ·) := by
    cases d <;> rfl
  rw [hchannel, hnews, List.reverse_reverse]

theorem putPipe_self (r : Relay) (d : Direction) : r.putPipe d (r.pipe d) = r := by
  have hchannel := channel_putPipe r [] (List.append_nil (r.pipe d).events).symm
  cases d <;> simp_all [putPipe, pipe]

/-! ## What holds at all times -/

/-- The ends of the pipe of a direction when a relay begins. -/
def base (client target : Duplex) : Direction → Ends
  | .outward => ⟨client.source, target.sink⟩
  | .inward => ⟨target.source, client.sink⟩

/-- A relay whose two pipes run once, and whose channel has taken all that they report: what has
arrived at either side, all reports so far, and how often either side was shut. -/
structure Coupled (bufferSize : Nat) (client target : Duplex) (arrived : Side → List Arrival)
    (reports : List Report) (shut : Side → Nat) (r : Relay) : Prop where
  runs : ∀ d, (r.pipe d).Run bufferSize (base client target d) (arrived d.source) (r.stage.call d)
  tells : ∀ d, reportsOf d reports = (r.pipe d).events
  hears : ∃ heard, r.Heard heard ∧ reports = heard ++ r.channel
  silent : r.stage = .done → r.channel = []
  shuts : ∀ d, shut d.sink = (r.pipe d).released.isSome.toNat

variable {bufferSize : Nat} {client target : Duplex} {arrived arrived' : Side → List Arrival}
  {reports : List Report} {shut shut' : Side → Nat} {r : Relay}

theorem channel_start (bufferSize : Nat) (client target : Duplex) :
    (start bufferSize client target).channel = [(.outward, .started), (.inward, .started)] := by
  have hevents : ∀ e, (Pipe.new bufferSize e).start.2.events =
      (Pipe.new bufferSize e).events ++ [.started] := Pipe.events_start bufferSize
  unfold start
  rw [channel_putPipe _ [.started] (hevents _), channel_putPipe _ [.started] (hevents _)]
  rfl

theorem coupled_start (bufferSize : Nat) (client target : Duplex) :
    (start bufferSize client target).Coupled bufferSize client target (fun _ => [])
      (start bufferSize client target).channel fun _ => 0 := by
  have hpipe : ∀ d, (start bufferSize client target).pipe d =
      (Pipe.new bufferSize (base client target d)).start.2 := by
    intro d
    cases d <;> rfl
  refine ⟨?_, ?_, ⟨[], ⟨rfl, rfl⟩, rfl⟩, nofun, ?_⟩
  · intro d
    rw [hpipe]
    exact Pipe.run_start bufferSize _
  · intro d
    rw [hpipe, channel_start, Pipe.events_start]
    cases d <;> rfl
  · intro d
    rw [hpipe]
    rfl

/-- A pipe after a step is put back, and what it has reported goes through the channel. The other
one is left alone. -/
theorem Coupled.put (h : Coupled bufferSize client target arrived reports shut r) {d : Direction}
    {q : Pipe} {news : List PipeEvent} (stage : RelayStage) (shut' : Side → Nat)
    (hrun : q.Run bufferSize (base client target d) (arrived' d.source) (stage.call d))
    (hevents : q.events = (r.pipe d).events ++ news)
    (hshut : shut' d.sink = q.released.isSome.toNat)
    (hdone : stage = .done → r.stage = .done ∧ news = [])
    (hcall : stage.call d.opposite = r.stage.call d.opposite)
    (harrived : arrived' d.sink = arrived d.sink) (hsame : shut' d.source = shut d.source) :
    Coupled bufferSize client target arrived' (reports ++ news.map (d, ·)) shut'
      { r.putPipe d q with stage } := by
  have hchannel := channel_putPipe r news hevents
  have hpipe : ∀ d', Relay.pipe { r.putPipe d q with stage } d' = (r.putPipe d q).pipe d' := by
    intro d'
    cases d' <;> rfl
  have hothers : ∀ d', d' ≠ d → d' = d.opposite ∧ d'.source = d.sink ∧ d'.sink = d.source := by
    intro d' hd'
    cases d <;> cases d' <;> simp_all [Direction.opposite, Direction.source, Direction.sink]
  constructor
  · intro d'
    rw [hpipe, pipe_putPipe]
    by_cases hd : d' = d
    · rw [if_pos hd, hd]
      exact hrun
    · obtain ⟨rfl, hsource, _⟩ := hothers d' hd
      rw [if_neg hd, hsource, harrived, ← hsource]
      show (r.pipe d.opposite).Run _ _ _ (stage.call d.opposite)
      rw [hcall]
      exact h.runs d.opposite
  · intro d'
    rw [hpipe, pipe_putPipe, reportsOf_append, reportsOf_map, h.tells]
    by_cases hd : d' = d
    · rw [if_pos hd, if_pos hd.symm, hd, hevents]
    · rw [if_neg hd, if_neg (Ne.symm hd), List.append_nil]
  · obtain ⟨heard, hheard, hreports⟩ := h.hears
    refine ⟨heard, ⟨?_, ?_⟩, ?_⟩
    · exact (stats_putPipe r d q).trans hheard.stats
    · exact (failure_putPipe r d q).trans hheard.failure
    · rw [hreports, List.append_assoc]
      exact congrArg (heard ++ ·) hchannel.symm
  · intro hstage
    obtain ⟨hstage, rfl⟩ := hdone hstage
    exact hchannel.trans (by rw [h.silent hstage]; rfl)
  · intro d'
    rw [hpipe, pipe_putPipe]
    by_cases hd : d' = d
    · rw [if_pos hd, hd, hshut]
    · obtain ⟨_, hsource, hsink⟩ := hothers d' hd
      rw [if_neg hd, hsink, hsame, ← hsink]
      exact h.shuts d'

/-- What goes through the channel from one moment to the next is what the pipes report. -/
theorem Coupled.news_eq {r' : Relay} {d : Direction} {events : List PipeEvent}
    (h : Coupled bufferSize client target arrived reports shut r)
    (h' : Coupled bufferSize client target arrived' (reports ++ events.map (d, ·)) shut' r') :
    r.news r' .outward ++ r.news r' .inward = events.map (d, ·) := by
  have hnews : ∀ d', r.news r' d' = (if d = d' then events else []).map (d', ·) := by
    intro d'
    rw [news, ← h.tells, ← h'.tells, reportsOf_append, reportsOf_map, List.drop_left]
  rw [hnews, hnews]
  cases d <;> simp

/-- What happens and is told of nothing leaves the reports as they are. -/
theorem Coupled.act_of_silent {r' : Relay}
    (h : Coupled bufferSize client target arrived reports shut r)
    (h' : Coupled bufferSize client target arrived' reports shut' r') :
    Coupled bufferSize client target arrived'
      (reports ++ (r.news r' .outward ++ r.news r' .inward)) shut' r' := by
  have hnone : Coupled bufferSize client target arrived'
      (reports ++ ([] : List PipeEvent).map (Direction.outward, ·)) shut' r' := by
    rwa [List.map_nil, List.append_nil]
  rw [h.news_eq hnone]
  exact hnone

/-- Steps of the loops are told through the channel. -/
theorem Coupled.loop (h : Coupled bufferSize client target arrived reports shut r)
    {d : Direction} {loop : Nat} {q : Pipe}
    (hstep : (r.pipe d).advance loop = some q ∨ (r.pipe d).abandon loop = some q) :
    Coupled bufferSize client target arrived
      (reports ++ (r.news (r.putPipe d q) .outward ++ r.news (r.putPipe d q) .inward)) shut
      (r.putPipe d q) := by
  have hopen : r.stage ≠ .done := by
    intro hstage
    have hnone := (h.runs d).loops_of_returned (by rw [hstage]; rfl)
    rcases hstep with hstep | hstep
    · simp [Pipe.advance, Pipe.loop?, hnone] at hstep
    · simp [Pipe.abandon, Pipe.loop?, hnone] at hstep
  have hrun : q.Run bufferSize (base client target d) (arrived d.source) (r.stage.call d) := by
    rcases hstep with hstep | hstep
    · exact (h.runs d).advance hstep
    · exact (h.runs d).abandon hstep
  obtain ⟨hreleased, events, hevents⟩ : q.released = (r.pipe d).released ∧
      ∃ events, q.events = (r.pipe d).events ++ events := by
    rcases hstep with hstep | hstep
    · exact Pipe.frame_advance hstep
    · exact Pipe.frame_abandon hstep
  have hput := h.put r.stage shut hrun hevents
    (by rw [hreleased]; exact h.shuts d) (fun hdone => absurd hdone hopen) rfl rfl rfl
  have hstage : { r.putPipe d q with stage := r.stage } = r.putPipe d q := by
    cases d <;> rfl
  rw [hstage] at hput
  rw [h.news_eq hput]
  exact hput

/-- A stage with the same calls changes nothing for the pipes. -/
theorem Coupled.restage (h : Coupled bufferSize client target arrived reports shut r)
    {stage : RelayStage} (hcall : ∀ d, stage.call d = r.stage.call d)
    (hopen : stage = .done → r.channel = []) :
    Coupled bufferSize client target arrived reports shut { r with stage } := by
  refine ⟨fun d => ?_, h.tells, ?_, hopen, h.shuts⟩
  · show (r.pipe d).Run _ _ _ (stage.call d)
    rw [hcall]
    exact h.runs d
  · obtain ⟨heard, hheard, hreports⟩ := h.hears
    exact ⟨heard, ⟨hheard.stats, hheard.failure⟩, hreports⟩

theorem Coupled.beginClosing (h : Coupled bufferSize client target arrived reports shut r)
    (hstage : r.stage = .listening) :
    Coupled bufferSize client target arrived reports shut r.beginClosing := by
  refine h.restage (fun d => ?_) nofun
  rw [hstage]
  cases d <;> rfl

/-- What is heard is taken from the channel and noted, and may bring the relay down. -/
theorem exists_of_hear {r' : Relay} (h : r.hear = some r') :
    ∃ x rest, r.stage = .listening ∧ r.channel = x :: rest ∧
      (r' = note { r with channel := rest } x ∨
        r' = (note { r with channel := rest } x).beginClosing) := by
  unfold Relay.hear at h
  split at h
  case h_2 => cases h
  case h_1 d event rest hstage hchannel =>
    refine ⟨(d, event), rest, hstage, hchannel, ?_⟩
    cases event with
    | stopped total => exact .inr (Option.some.inj h).symm
    | _ => exact .inl (Option.some.inj h).symm

/-- What was reported on the way out is noted in the end. -/
theorem exists_of_finish {r' : Relay} (h : r.finish = some r') :
    r.stage = .closing .returned .returned ∧
      r' = { r.channel.foldl note r with channel := [], stage := .done } := by
  unfold Relay.finish at h
  split at h
  case h_2 => cases h
  case h_1 hstage => exact ⟨hstage, (Option.some.inj h).symm⟩

theorem pipe_of_hear {r' : Relay} (h : r.hear = some r') (d : Direction) :
    r'.pipe d = r.pipe d := by
  obtain ⟨x, rest, _, _, rfl | rfl⟩ := exists_of_hear h
  · exact pipe_note _ x d
  · exact pipe_note _ x d

theorem pipe_of_finish {r' : Relay} (h : r.finish = some r') (d : Direction) :
    r'.pipe d = r.pipe d := by
  obtain ⟨_, rfl⟩ := exists_of_finish h
  exact pipe_foldl_note r.channel r d

/-- Nothing is lost when a report is heard. -/
theorem Coupled.hear {r' : Relay} (h : Coupled bufferSize client target arrived reports shut r)
    (hstep : r.hear = some r') : Coupled bufferSize client target arrived reports shut r' := by
  obtain ⟨x, rest, hstage, hchannel, hr'⟩ := exists_of_hear hstep
  have hnoted : Coupled bufferSize client target arrived reports shut
      (note { r with channel := rest } x) := by
    refine ⟨fun d => ?_, fun d => ?_, ?_, fun hdone => ?_, fun d => ?_⟩
    · rw [pipe_note, stage_note]
      exact h.runs d
    · rw [pipe_note]
      exact h.tells d
    · obtain ⟨heard, hheard, hreports⟩ := h.hears
      have hbefore : Heard { r with channel := rest } heard := ⟨hheard.stats, hheard.failure⟩
      refine ⟨heard ++ [x], hbefore.note _, ?_⟩
      rw [hreports, hchannel, channel_note, List.append_assoc]
      rfl
    · rw [stage_note] at hdone
      have hdone : r.stage = .done := hdone
      rw [hstage] at hdone
      cases hdone
    · rw [pipe_note]
      exact h.shuts d
  rcases hr' with rfl | rfl
  · exact hnoted
  · refine hnoted.beginClosing ?_
    rw [stage_note]
    exact hstage

theorem Coupled.finish {r' : Relay} (h : Coupled bufferSize client target arrived reports shut r)
    (hstep : r.finish = some r') : Coupled bufferSize client target arrived reports shut r' := by
  have hpipe := pipe_of_finish hstep
  obtain ⟨hstage, rfl⟩ := exists_of_finish hstep
  refine ⟨fun d => ?_, fun d => ?_, ?_, fun _ => rfl, fun d => ?_⟩
  · have hrun := h.runs d
    rw [hstage, ← hpipe] at hrun
    cases d <;> exact hrun
  · rw [hpipe]
    exact h.tells d
  · obtain ⟨heard, hheard, hreports⟩ := h.hears
    have hnotes := hheard.notes r.channel
    exact ⟨heard ++ r.channel, ⟨hnotes.stats, hnotes.failure⟩, by rw [hreports, List.append_nil]⟩
  · rw [hpipe]
    exact h.shuts d

/-- What going on to close a pipe comes to. -/
theorem exists_of_closePipe {r' : Relay} {d : Direction} (h : r.closePipe d = some r') :
    ∃ q call stage, (r.pipe d).Closes (r.stage.call d) q call ∧
      r' = { r.putPipe d q with stage } ∧ stage.call d = call ∧
      stage.call d.opposite = r.stage.call d.opposite ∧ stage ≠ .done := by
  unfold Relay.closePipe at h
  split at h
  case h_2 => cases h
  case h_1 out back hstage =>
    rw [hstage]
    cases d with
    | outward =>
      obtain ⟨⟨q, call⟩, hstep, rfl⟩ := Option.map_eq_some_iff.1 h
      exact ⟨q, call, .closing call back, Pipe.closes_of_closeStep hstep, rfl, rfl, rfl, nofun⟩
    | inward =>
      obtain ⟨⟨q, call⟩, hstep, rfl⟩ := Option.map_eq_some_iff.1 h
      exact ⟨q, call, .closing out call, Pipe.closes_of_closeStep hstep, rfl, rfl, rfl, nofun⟩

/-- A step of the call that closes a pipe shuts a stream if it takes the ends out of the slot. -/
theorem Coupled.closePipe {r' : Relay} {d : Direction} {isClosed : Bool}
    (h : Coupled bufferSize client target arrived reports shut r)
    (hstep : r.closePipe d = some r') :
    Coupled bufferSize client target arrived
      (reports ++ (r.news r' .outward ++ r.news r' .inward))
      (fun side => shut side + (r.shutsIn side (.turn isClosed (.close d))).toNat) r' := by
  have hact : r.act (.turn isClosed (.close d)) = r' := by
    show (r.closePipe d).getD r = r'
    rw [hstep, Option.getD_some]
  obtain ⟨q, call, stage, hcloses, rfl, rfl, hother, hopen⟩ := exists_of_closePipe hstep
  have hpipe : Relay.pipe { r.putPipe d q with stage } d = q := by
    cases d <;> rfl
  have hevents : q.events = (r.pipe d).events ++ [] := by rw [hcloses.events_eq, List.append_nil]
  have hshut : shut d.sink + (r.shutsIn d.sink (.turn isClosed (.close d))).toNat =
      q.released.isSome.toNat := by
    rw [(h.runs d).released_close hcloses, h.shuts, shutsIn, hact, hpipe, decide_eq_true rfl,
      Bool.true_and]
  -- The pipe of a direction writes to one side only; what becomes of the other side is not its.
  have hsame : shut d.source + (r.shutsIn d.source (.turn isClosed (.close d))).toNat =
      shut d.source := by
    have hside : decide (d.sink = d.source) = false := by cases d <;> rfl
    rw [shutsIn, hside, Bool.false_and, Bool.false_and]
    rfl
  have hput := h.put stage
    (fun side => shut side + (r.shutsIn side (.turn isClosed (.close d))).toNat)
    ((h.runs d).close hcloses) hevents hshut (fun hdone => absurd hdone hopen) hother rfl hsame
  rw [h.news_eq hput]
  exact hput

/-! ## From outside -/

@[simp] theorem pipe_wake (r : Relay) (side : Side) (d : Direction) :
    (r.wake side).pipe d = r.pipe d := by
  unfold Relay.wake
  split <;> rfl

theorem Coupled.wake (h : Coupled bufferSize client target arrived reports shut r) (side : Side) :
    Coupled bufferSize client target arrived reports shut (r.wake side) := by
  have hfront : ∀ front, Coupled bufferSize client target arrived reports shut
      { r with front } := by
    intro front
    obtain ⟨heard, hheard, hreports⟩ := h.hears
    exact ⟨h.runs, h.tells, ⟨heard, ⟨hheard.stats, hheard.failure⟩, hreports⟩, h.silent, h.shuts⟩
  unfold Relay.wake
  split
  · exact hfront _
  · exact hfront _
  · exact h

/-- What happens to the stream of a side happens to the ends that the two pipes have of it. -/
theorem updateStream_eq {change : Duplex → Duplex} (onSource : Source → Source)
    (onSink : Sink → Sink) (hat : ∀ d, ∃ place, (r.pipe d).IsAt place) (side : Side)
    (hchange : ∀ d, change d = ⟨onSource d.source, onSink d.sink⟩) :
    r.updateStream side change =
      ((r.wake side).putPipe side.reading ((r.pipe side.reading).updateEnds fun e =>
        { e with source := onSource e.source })).putPipe side.writing
          ((r.pipe side.writing).updateEnds fun e => { e with sink := onSink e.sink }) := by
  obtain ⟨place, hplace⟩ := hat side.reading
  obtain ⟨place', hplace'⟩ := hat side.writing
  have hsource : ∀ e, place.ends? = some e →
      ({ e with
          source := onSource ((place.ends?.map (·.source)).getD { arrivals := [] }) } : Ends) =
        { e with source := onSource e.source } := by
    intro e he
    rw [he]
    rfl
  have hsink : ∀ e, place'.ends? = some e →
      ({ e with sink := onSink ((place'.ends?.map (·.sink)).getD (.empty {})) } : Ends) =
        { e with sink := onSink e.sink } := by
    intro e he
    rw [he]
    rfl
  unfold updateStream
  simp only [hchange, stream, pipe_putPipe, side.writing_ne_reading, ↓reduceIte, pipe_wake,
    hplace.ends?_eq, hplace'.ends?_eq]
  rw [hplace.updateEnds_congr hsource, hplace'.updateEnds_congr hsink]

/-- A pipe whose ends something has happened to is put back. -/
theorem Coupled.replace (h : Coupled bufferSize client target arrived reports shut r)
    {d : Direction} {q : Pipe}
    (hrun : q.Run bufferSize (base client target d) (arrived' d.source) (r.stage.call d))
    (hevents : q.events = (r.pipe d).events)
    (hreleased : q.released.isSome = (r.pipe d).released.isSome)
    (harrived : arrived' d.sink = arrived d.sink) :
    Coupled bufferSize client target arrived' reports shut (r.putPipe d q) := by
  have hput := h.put r.stage shut hrun (hevents.trans (List.append_nil _).symm)
    (by rw [hreleased]; exact h.shuts d) (fun hdone => ⟨hdone, rfl⟩) rfl harrived rfl
  have hstage : { r.putPipe d q with stage := r.stage } = r.putPipe d q := by
    cases d <;> rfl
  rwa [hstage, List.map_nil, List.append_nil] at hput

theorem act_feed_eq (hat : ∀ d, ∃ place, (r.pipe d).IsAt place) (side : Side)
    (arrivals : List Arrival) :
    r.act (.feed side arrivals) =
      (r.wake side).putPipe side.reading ((r.pipe side.reading).updateEnds fun e =>
        { e with source := e.source.feed arrivals }) := by
  have hwriting : ∀ q, (r.pipe side.writing).updateEnds (fun e => e) =
      ((r.wake side).putPipe side.reading q).pipe side.writing := by
    intro q
    rw [Pipe.updateEnds_id, pipe_putPipe, if_neg side.writing_ne_reading, pipe_wake]
  rw [act, updateStream_eq (·.feed arrivals) (fun s => s) hat side fun _ => rfl]
  exact (congrArg _ (hwriting _)).trans (putPipe_self _ _)

theorem act_setIntake_eq (hat : ∀ d, ∃ place, (r.pipe d).IsAt place) (side : Side)
    (rule : Intake) :
    r.act (.setIntake side rule) =
      (r.wake side).putPipe side.writing ((r.pipe side.writing).updateEnds fun e =>
        { e with sink := { e.sink with intake := rule } }) := by
  have hreading : (r.pipe side.reading).updateEnds (fun e => e) =
      (r.wake side).pipe side.reading := by
    rw [Pipe.updateEnds_id, pipe_wake]
  rw [act, updateStream_eq (fun s => s) (fun s => { s with intake := rule }) hat side fun _ => rfl]
  refine congrArg (fun r : Relay => r.putPipe side.writing _) ?_
  exact (congrArg _ hreading).trans (putPipe_self _ _)

theorem Coupled.feed (h : Coupled bufferSize client target arrived reports shut r) (side : Side)
    (arrivals : List Arrival) :
    Coupled bufferSize client target
      (fun side' => arrived side' ++ Act.arrivals side' (.feed side arrivals)) reports shut
      (r.act (.feed side arrivals)) := by
  rw [act_feed_eq fun d => (h.runs d).exists_isAt]
  have hwaked := h.wake side
  have hstage : (r.wake side).stage = r.stage := by
    unfold Relay.wake
    split <;> rfl
  refine hwaked.replace ?_ ?_ ?_ ?_
  · rw [hstage]
    have hfed := (h.runs side.reading).feed arrivals
    simpa [Act.arrivals] using hfed
  · rw [pipe_wake]
    rfl
  · rw [pipe_wake]
    exact Option.isSome_map
  · cases side <;> simp [Act.arrivals, Side.reading, Direction.sink]

theorem Coupled.setIntake (h : Coupled bufferSize client target arrived reports shut r)
    (side : Side) (rule : Intake) :
    Coupled bufferSize client target arrived reports shut (r.act (.setIntake side rule)) := by
  rw [act_setIntake_eq fun d => (h.runs d).exists_isAt]
  have hstage : (r.wake side).stage = r.stage := by
    unfold Relay.wake
    split <;> rfl
  refine (h.wake side).replace ?_ ?_ ?_ rfl
  · rw [hstage]
    exact (h.runs side.writing).setIntake rule
  · rw [pipe_wake]
    rfl
  · rw [pipe_wake]
    exact Option.isSome_map

/-! ## A whole life -/

/-- A step of the relay keeps it coupled. -/
theorem Coupled.turn {r' : Relay} {isClosed : Bool} {turn : RelayTurn}
    (h : Coupled bufferSize client target arrived reports shut r)
    (hstep : r.step isClosed turn = some r') :
    Coupled bufferSize client target arrived
      (reports ++ (r.news r' .outward ++ r.news r' .inward))
      (fun side => shut side + (r.shutsIn side (.turn isClosed turn)).toNat) r' := by
  cases turn with
  | advance d loop =>
    obtain ⟨q, hq, rfl⟩ := Option.map_eq_some_iff.1 hstep
    exact h.loop (.inl hq)
  | abandon d loop =>
    obtain ⟨q, hq, rfl⟩ := Option.map_eq_some_iff.1 hstep
    exact h.loop (.inr hq)
  | hear => exact h.act_of_silent (h.hear hstep)
  | noticeClosed =>
    refine h.act_of_silent ?_
    simp only [step, Option.ite_none_right_eq_some, Bool.and_eq_true, decide_eq_true_eq,
      Option.some.injEq] at hstep
    obtain ⟨⟨_, hstage⟩, rfl⟩ := hstep
    exact h.beginClosing hstage
  | close d => exact h.closePipe hstep
  | finish => exact h.act_of_silent (h.finish hstep)

/-- Whatever happens, the relay stays coupled. -/
theorem Coupled.act (h : Coupled bufferSize client target arrived reports shut r) (a : Act) :
    Coupled bufferSize client target (fun side => arrived side ++ a.arrivals side)
      (reports ++ (r.news (r.act a) .outward ++ r.news (r.act a) .inward))
      (fun side => shut side + (r.shutsIn side a).toNat) (r.act a) := by
  have hnothing : (fun side => arrived side ++ []) = arrived := funext fun _ => List.append_nil _
  cases a with
  | feed side arrivals => exact h.act_of_silent (h.feed side arrivals)
  | setIntake side rule =>
    show Coupled bufferSize client target (fun side => arrived side ++ []) _ shut _
    rw [hnothing]
    exact h.act_of_silent (h.setIntake side rule)
  | turn isClosed turn =>
    show Coupled bufferSize client target (fun side => arrived side ++ []) _ _ _
    rw [hnothing]
    cases hstep : r.step isClosed turn with
    | some r' =>
      have hact : r.act (.turn isClosed turn) = r' := by rw [Relay.act, hstep, Option.getD_some]
      rw [hact]
      exact h.turn hstep
    | none =>
      -- A step that cannot be taken changes nothing, and shuts nothing either.
      have hact : r.act (.turn isClosed turn) = r := by rw [Relay.act, hstep, Option.getD_none]
      have hshut : ∀ side, r.shutsIn side (.turn isClosed turn) = false := by
        intro side
        cases turn with
        | close d =>
          rw [shutsIn, hact]
          cases (r.pipe d).slot <;> simp
        | _ => rfl
      have hsame :
          (fun side => shut side + (r.shutsIn side (.turn isClosed turn)).toNat) = shut := by
        funext side
        rw [hshut]
        rfl
      rw [hact, hsame]
      exact h.act_of_silent h

theorem Coupled.after (h : Coupled bufferSize client target arrived reports shut r)
    (acts : List Act) :
    Coupled bufferSize client target (fun side => arrived side ++ arrivedAt side acts)
      (reports ++ r.reported acts) (fun side => shut side + r.shuttings side acts)
      (r.after acts) := by
  induction acts generalizing r arrived reports shut with
  | nil => simpa [arrivedAt, reported, shuttings] using h
  | cons a acts ih =>
    have hrest := ih (h.act a)
    simpa only [arrivedAt, List.flatMap_cons, reported, shuttings, after_cons, List.append_assoc,
      Nat.add_assoc] using hrest

/-! ## Coming to an end -/

/-- All that the pipes of a relay report in a part of its life, in the order of the channel. -/
def reportsOn (bufferSize : Nat) (client target : Duplex) (acts : List Act) : List Report :=
  (start bufferSize client target).channel ++ (start bufferSize client target).reported acts

/-- The bytes that a direction has read in a part of the life of a relay. -/
def readOn (bufferSize : Nat) (client target : Duplex) (acts : List Act) (d : Direction) : Bytes :=
  (Source.streamed ((base client target d).source.arrivals ++ arrivedAt d.source acts)).take
    ((((start bufferSize client target).after acts).stream d.source).source.consumed -
      (base client target d).source.consumed)

theorem coupled_after (bufferSize : Nat) (client target : Duplex) (acts : List Act) :
    ((start bufferSize client target).after acts).Coupled bufferSize client target
      (arrivedAt · acts) (reportsOn bufferSize client target acts)
      ((start bufferSize client target).shuttings · acts) := by
  have hcoupled := (coupled_start bufferSize client target).after acts
  simp only [List.nil_append, Nat.zero_add] at hcoupled
  exact hcoupled

/-- At any time a side has taken a front of what was read from the other one. -/
theorem accepted_after (bufferSize : Nat) (client target : Duplex) (acts : List Act)
    (d : Direction) (hfits : bufferSize ≤ Pipe.maxBuffer) :
    ∃ w, (((start bufferSize client target).after acts).stream d.sink).sink.accepted =
        (base client target d).sink.accepted ++ w ∧
      w <+: readOn bufferSize client target acts d := by
  obtain ⟨e, w, rest, hends, hcarries⟩ :=
    ((coupled_after bufferSize client target acts).runs d).exists_carries hfits
  refine ⟨w, ?_, ?_⟩
  · rw [stream, d.writing_sink, hends]
    exact hcarries.writes
  · rw [readOn, stream, d.reading_source, hends]
    exact hcarries.isPrefix

/-- What a relay has come to when it is done. Both loops are over. The outcome is the first failure
in the order of the channel or, without one, the sums of what was transferred either way. Each
stream was shut once, and has taken a front of what was read from the other one; but where there is
no buffer of that size, no stream is shut, and all are lost. -/
theorem outcome_after (bufferSize : Nat) (client target : Duplex) (acts : List Act)
    {result : Except Failure RelayStats}
    (h : ((start bufferSize client target).after acts).outcome? = some result) :
    let r := (start bufferSize client target).after acts
    let reports := reportsOn bufferSize client target acts
    (∀ d, (r.pipe d).loops = []) ∧
      result = (match failureOf reports with
        | some cause => .error (.relay cause)
        | none => .ok ⟨transferred .outward reports, transferred .inward reports⟩) ∧
      (bufferSize ≤ Pipe.maxBuffer →
        (∀ side, (start bufferSize client target).shuttings side acts = 1) ∧
        ∀ d, ∃ w, (r.stream d.sink).sink.accepted = (base client target d).sink.accepted ++ w ∧
          w <+: readOn bufferSize client target acts d) ∧
      (Pipe.maxBuffer < bufferSize →
        (∀ side, (start bufferSize client target).shuttings side acts = 0) ∧
        ∀ d, (r.pipe d).ends? = none) := by
  intro r reports
  have hcoupled := coupled_after bufferSize client target acts
  obtain ⟨hstage, hresult⟩ : r.stage = .done ∧ result = (match r.failure with
      | some cause => .error (.relay cause)
      | none => .ok r.stats) := by
    unfold outcome? at h
    split at h
    case h_1 hstage => exact ⟨hstage, (Option.some.inj h).symm⟩
    case h_2 => cases h
  have hcall : ∀ d, r.stage.call d = .returned := by
    intro d
    rw [hstage]
    rfl
  have hshuttings : ∀ side, (start bufferSize client target).shuttings side acts =
      (decide (bufferSize ≤ Pipe.maxBuffer)).toNat := by
    intro side
    have hshuts := hcoupled.shuts side.writing
    rw [side.sink_writing] at hshuts
    rw [hshuts, (hcoupled.runs _).isSome_released_of_returned (hcall _)]
  -- A relay that is done has emptied its channel, so that it has heard all there is.
  have hheard : r.Heard reports := by
    obtain ⟨heard, hheard, hreports⟩ := hcoupled.hears
    rw [hcoupled.silent hstage, List.append_nil] at hreports
    rw [← hreports] at hheard
    exact hheard
  have hstats : ∀ d, r.stats.of d = transferred d reports := by
    intro d
    rw [hheard.stats, of_statsOf, transferred, hcoupled.tells]
    exact (hcoupled.runs d).lastTotal_of_returned (hcall d)
  refine ⟨fun d => (hcoupled.runs d).loops_of_returned (hcall d), ?_, ?_, ?_⟩
  · rw [hresult, hheard.failure, ← hstats, ← hstats]
    rfl
  · intro hfits
    refine ⟨fun side => ?_, fun d => accepted_after bufferSize client target acts d hfits⟩
    rw [hshuttings, decide_eq_true hfits]
    rfl
  · intro hexceeds
    refine ⟨fun side => ?_, fun d => (hcoupled.runs d).ends?_of_exceeds hexceeds⟩
    rw [hshuttings, decide_eq_false (by omega)]
    rfl

/-- The stream of a side that brings nothing and takes everything. -/
def quiet : Duplex := { source := ⟨[], 0⟩ }

/-- The client sends a byte and ends. The relay copies it, hears of the end, and closes both pipes;
the one that waits for the target has to be told. -/
def oneByteLife : List Act :=
  .feed .client [.piece [7], .finish] :: turns false (
    .replicate 4 (.advance .outward 1) ++ .replicate 4 .hear ++ .replicate 3 (.close .outward) ++
      [.close .inward, .abandon .inward 1] ++ .replicate 3 (.close .inward) ++ [.finish])

/-- Both streams are shut when that byte has gone from one to the other. -/
theorem outcome_after_oneByteLife :
    ((start 1 quiet quiet).after oneByteLife).outcome? = some (.ok ⟨1, 0⟩) ∧
      ∀ side, (start 1 quiet quiet).shuttings side oneByteLife = 1 := by
  have hdone : ((start 1 quiet quiet).after oneByteLife).outcome? = some (.ok ⟨1, 0⟩) := rfl
  exact ⟨hdone, ((outcome_after 1 quiet quiet oneByteLife hdone).2.2.1 (by decide)).1⟩

/-- The session is closed, and the relay with it. -/
def closedLife : List Act :=
  turns true (
    [.noticeClosed] ++ .replicate 4 (.close .outward) ++ .replicate 4 (.close .inward) ++ [.finish])

/-- With a buffer that is larger than any can be, the relay returns as if nothing had happened, and
no stream was shut. -/
theorem not_shut_without_buffer :
    ((start (Pipe.maxBuffer + 1) quiet quiet).after closedLife).outcome? = some (.ok {}) ∧
      ∀ side, (start (Pipe.maxBuffer + 1) quiet quiet).shuttings side closedLife = 0 := by
  refine ⟨rfl, fun side => ?_⟩
  cases side <;> rfl

end Relay

end Socks5
