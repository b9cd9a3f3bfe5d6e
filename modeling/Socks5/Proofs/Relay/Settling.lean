import Socks5.Proofs.Relay.Coupling

/-!
# Letting a relay go on

A relay that runs takes all the steps that it can, in an order of its own. Main statement: what it
comes to is where steps in a row lead (`exists_turns_settle`), so that what holds in every life of a
relay holds of one that runs.
-/

namespace Socks5

namespace Pipe

variable {p q : Pipe}

theorem exists_events_of_nextStep (h : p.nextStep = some q) :
    ∃ news, q.events = p.events ++ news := by
  obtain ⟨loop, hadvance | habandon⟩ := advance_or_abandon_of_nextStep h
  · exact (frame_advance hadvance).2
  · exact (frame_abandon habandon).2

theorem exists_events_settleWithin (steps : Nat) (p : Pipe) :
    ∃ news, (p.settleWithin steps).events = p.events ++ news := by
  induction steps generalizing p with
  | zero => exact ⟨[], (List.append_nil _).symm⟩
  | succ steps ih =>
    rw [settleWithin]
    cases hnext : p.nextStep with
    | none => exact ⟨[], (List.append_nil _).symm⟩
    | some q =>
      obtain ⟨news, hnews⟩ := exists_events_of_nextStep hnext
      obtain ⟨news', hnews'⟩ := ih q
      exact ⟨news ++ news', by rw [hnews', hnews, List.append_assoc]⟩

end Pipe

namespace Relay

variable {r : Relay} {d : Direction} {p q : Pipe}

/-- A pipe that is put back twice is put back once, if it reports more and more. -/
theorem putPipe_putPipe {news news' : List PipeEvent} (h : p.events = (r.pipe d).events ++ news)
    (h' : q.events = p.events ++ news') : (r.putPipe d p).putPipe d q = r.putPipe d q := by
  have hpipe : (r.putPipe d p).pipe d = p := by rw [pipe_putPipe, if_pos rfl]
  have hfirst := channel_putPipe r news h
  have hsecond := channel_putPipe (r.putPipe d p) news' (hpipe.symm ▸ h')
  have hboth := channel_putPipe r (news ++ news') (h'.trans (by rw [h, List.append_assoc]))
  have hchannel : ((r.putPipe d p).putPipe d q).channel = (r.putPipe d q).channel := by
    rw [hsecond, hfirst, hboth, List.map_append, List.append_assoc]
  cases d <;> simp_all [putPipe]

theorem turns_append (isClosed : Bool) (ts ts' : List RelayTurn) :
    turns isClosed (ts ++ ts') = turns isClosed ts ++ turns isClosed ts' := List.map_append

/-- Parts of a life that are made of steps follow one another. -/
theorem exists_turns_trans {isClosed : Bool} {r' r'' : Relay}
    (h : ∃ ts, r' = r.after (turns isClosed ts)) (h' : ∃ ts, r'' = r'.after (turns isClosed ts)) :
    ∃ ts, r'' = r.after (turns isClosed ts) := by
  obtain ⟨ts, rfl⟩ := h
  obtain ⟨ts', rfl⟩ := h'
  exact ⟨ts ++ ts', by rw [turns_append, after_append]⟩

/-- A step is a part of a life, whether it can be taken or not. -/
theorem exists_turns_step (isClosed : Bool) (r : Relay) (turn : RelayTurn) :
    ∃ ts, (r.step isClosed turn).getD r = r.after (turns isClosed ts) := ⟨[turn], rfl⟩

theorem exists_turns_settleWithin (isClosed : Bool) (d : Direction) (steps : Nat) (r : Relay) :
    ∃ ts, r.putPipe d ((r.pipe d).settleWithin steps) = r.after (turns isClosed ts) := by
  induction steps generalizing r with
  | zero => exact ⟨[], putPipe_self r d⟩
  | succ steps ih =>
    rw [Pipe.settleWithin]
    cases hnext : (r.pipe d).nextStep with
    | none => exact ⟨[], putPipe_self r d⟩
    | some q =>
      have hpipe : (r.putPipe d q).pipe d = q := by rw [pipe_putPipe, if_pos rfl]
      obtain ⟨news, hnews⟩ := Pipe.exists_events_of_nextStep hnext
      obtain ⟨news', hnews'⟩ := Pipe.exists_events_settleWithin steps q
      -- The rest of the steps is taken by a relay into which the pipe is put back after this one.
      have hrest := ih (r.putPipe d q)
      rw [hpipe, putPipe_putPipe hnews hnews'] at hrest
      refine exists_turns_trans ?_ hrest
      obtain ⟨loop, hadvance | habandon⟩ := Pipe.advance_or_abandon_of_nextStep hnext
      · refine ⟨[.advance d loop], ?_⟩
        show r.putPipe d q = (((r.pipe d).advance loop).map (r.putPipe d)).getD r
        rw [hadvance]
        rfl
      · refine ⟨[.abandon d loop], ?_⟩
        show r.putPipe d q = (((r.pipe d).abandon loop).map (r.putPipe d)).getD r
        rw [habandon]
        rfl

theorem exists_turns_settlePipes (isClosed : Bool) (r : Relay) :
    ∃ ts, r.settlePipes = r.after (turns isClosed ts) :=
  exists_turns_trans (exists_turns_settleWithin isClosed r.front _ r)
    (exists_turns_settleWithin isClosed r.front.opposite _ _)

theorem exists_turns_hearAll (isClosed : Bool) (reports : Nat) (r : Relay) :
    ∃ ts, hearAll reports r = r.after (turns isClosed ts) := by
  induction reports generalizing r with
  | zero => exact ⟨[], rfl⟩
  | succ reports ih =>
    rw [hearAll]
    cases hhear : r.hear with
    | none => exact ⟨[], rfl⟩
    | some r' =>
      refine exists_turns_trans ⟨[.hear], ?_⟩ (ih r')
      show r' = r.hear.getD r
      rw [hhear]
      rfl

theorem exists_turns_closeAll (isClosed : Bool) (steps : Nat) (r : Relay) :
    ∃ ts, closeAll steps r = r.after (turns isClosed ts) := by
  induction steps generalizing r with
  | zero => exact ⟨[], rfl⟩
  | succ steps ih =>
    refine exists_turns_trans (exists_turns_step isClosed r (.close .outward)) ?_
    refine exists_turns_trans (exists_turns_step isClosed _ (.close .inward)) ?_
    exact exists_turns_trans (exists_turns_settlePipes isClosed _) (ih _)

/-- Letting a relay go on is a part of its life, made of steps of its own. -/
theorem exists_turns_settle (isClosed : Bool) (r : Relay) :
    ∃ ts, r.settle isClosed = r.after (turns isClosed ts) := by
  have hbefore := exists_turns_trans (exists_turns_settlePipes isClosed r) <|
    exists_turns_trans (exists_turns_hearAll isClosed r.settlePipes.channel.length _)
      (exists_turns_step isClosed _ .noticeClosed)
  unfold settle
  simp only
  split
  · refine exists_turns_trans hbefore ?_
    exact exists_turns_trans (exists_turns_closeAll isClosed 5 _)
      (exists_turns_step isClosed _ .finish)
  · exact hbefore

end Relay

end Socks5
