import Socks5.Proofs.Relay.Coupling

/-!
# Relays come to an end when the session is closed

Whatever a relay waits for, it can be brought down from where it stands: it notices that the session
is closed, tells its loops to give up, and these do not wait for their streams then. Main statement:
a relay of a closed session that is not done can take a step that brings it nearer to its end
(`Coupled.exists_step`), so that its own steps lead to its outcome (`Coupled.exists_outcome`).
-/

namespace Socks5

namespace Pipe

/-- How far a call that closes a pipe is from its return. -/
def CloseCall.distance : CloseCall → Nat
  | .stopping .begun => 5
  | .stopping (.waiting _) => 3
  | .stopping (.returned _) => 2
  | .waiting _ => 1
  | .returned => 0

variable {bufferSize : Nat} {base : Ends} {arrived : List Arrival} {p q : Pipe}
  {call call' : CloseCall}

theorem Closes.distance_lt (h : Closes p call q call') : call'.distance < call.distance := by
  cases h <;> simp [CloseCall.distance]

theorem Closes.length_loops (h : Closes p call q call') : q.loops.length = p.loops.length := by
  cases h with
  | tells running => exact List.length_map _
  | finds stopped => rfl
  | joins ended => rfl
  | looks wasRunning => rfl
  | releases ended => rfl

theorem isOver_of_loops (h : p.loops = []) (loop : Option Nat) : p.isOver loop = true := by
  cases loop with
  | none => rfl
  | some id => simp [isOver, loop?, h]

/-- A call can take its next step, or it waits for a loop that was told to give up. -/
theorem Run.closeStep_or_abandon (hrun : Run bufferSize base arrived p call)
    (hopen : call ≠ .returned) :
    (p.closeStep call).isSome ∨ ∃ l, p.loops = [l] ∧ l.isCancelled := by
  -- With no loop left every wait of the call is over, whatever loop it is for.
  have hover : p.loops = [] → (p.closeStep call).isSome := by
    intro hloops
    have hover := isOver_of_loops hloops
    cases call with
    | stopping call =>
      cases call with
      | begun => cases hrunning : p.isRunning <;> simp [closeStep, stopStep, hrunning]
      | waiting loop => simp [closeStep, stopStep, hover]
      | returned wasRunning => rfl
    | waiting loop => simp [closeStep, hover]
    | returned => exact absurd rfl hopen
  cases hrun with
  | copies fits place id spawned books reports expects =>
    cases expects with
    -- A loop that was not told yet stands for a call that has only begun, and does not wait.
    | nothing running pending untold => exact .inl (by simp [closeStep, stopStep, running])
    | itsEnd told => exact .inr ⟨_, place.loops, told⟩
  | ended fits place books reports drained more => exact .inl (hover place.loops)
  | shut fits place books reports => exact absurd rfl hopen
  | lost exceeds place reports => exact .inl (hover place.loops)

/-- A loop that was told to give up does so, whatever its streams are like. -/
theorem exists_abandon {l : CopyLoop} (hloops : p.loops = [l]) (htold : l.isCancelled) :
    ∃ q, p.abandon l.id = some q ∧ q.loops = [] := by
  have hloop : p.loop? l.id = some l := by simp [loop?, hloops]
  refine ⟨p.finishLoop l none, by simp [abandon, hloop, htold], ?_⟩
  simp [finishLoop, report, hloops]

end Pipe

/-- How far a stage of a relay is from the last one. -/
def RelayStage.distance : RelayStage → Nat
  | .listening => 12
  | .closing out back => out.distance + back.distance + 1
  | .done => 0

namespace Relay

variable {bufferSize : Nat} {client target : Duplex} {arrived : Side → List Arrival}
  {reports : List Report} {shut : Side → Nat} {r : Relay}

/-- How far a relay is from its end, with the loops that have to be over before. -/
def distance (r : Relay) : Nat :=
  r.stage.distance + r.outward.loops.length + r.inward.loops.length

/-- A loop that was told to give up brings the relay nearer to its end when it does. -/
theorem exists_step_of_told {d : Direction} {l : CopyLoop} (hloops : (r.pipe d).loops = [l])
    (htold : l.isCancelled) :
    ∃ turn r', r.step true turn = some r' ∧ r'.distance < r.distance := by
  obtain ⟨q, hq, hnone⟩ := Pipe.exists_abandon hloops htold
  refine ⟨.abandon d l.id, r.putPipe d q, by rw [step, hq]; rfl, ?_⟩
  unfold distance
  rw [stage_putPipe]
  cases d with
  | outward =>
    have hout : (r.putPipe .outward q).outward.loops = [] := hnone
    have hbefore : r.outward.loops = [l] := hloops
    rw [hout, hbefore]
    show _ + 0 + r.inward.loops.length < _ + 1 + r.inward.loops.length
    omega
  | inward =>
    have hback : (r.putPipe .inward q).inward.loops = [] := hnone
    have hbefore : r.inward.loops = [l] := hloops
    rw [hback, hbefore]
    show _ + r.outward.loops.length + 0 < _ + r.outward.loops.length + 1
    omega

/-- So does the next step of a call that closes a pipe. -/
theorem exists_step_of_closeStep {d : Direction}
    (hclosing : ∃ out back, r.stage = .closing out back)
    (hstep : ((r.pipe d).closeStep (r.stage.call d)).isSome) :
    ∃ turn r', r.step true turn = some r' ∧ r'.distance < r.distance := by
  obtain ⟨out, back, hstage⟩ := hclosing
  obtain ⟨⟨q, call⟩, hclose⟩ := Option.isSome_iff_exists.1 hstep
  have hcloses := Pipe.closes_of_closeStep hclose
  have hlength := hcloses.length_loops
  have hlt := hcloses.distance_lt
  rw [hstage] at hclose hlt
  cases d with
  | outward =>
    refine ⟨.close .outward, { r.putPipe .outward q with stage := .closing call back }, ?_, ?_⟩
    · show r.closePipe .outward = _
      have hclose : r.outward.closeStep out = some (q, call) := hclose
      simp [closePipe, hstage, hclose]
    · have hlt : call.distance < out.distance := hlt
      have hlength : q.loops.length = r.outward.loops.length := hlength
      show call.distance + back.distance + 1 + q.loops.length + r.inward.loops.length < r.distance
      rw [distance, hstage, RelayStage.distance]
      omega
  | inward =>
    refine ⟨.close .inward, { r.putPipe .inward q with stage := .closing out call }, ?_, ?_⟩
    · show r.closePipe .inward = _
      have hclose : r.inward.closeStep back = some (q, call) := hclose
      simp [closePipe, hstage, hclose]
    · have hlt : call.distance < back.distance := hlt
      have hlength : q.loops.length = r.inward.loops.length := hlength
      show out.distance + call.distance + 1 + r.outward.loops.length + q.loops.length < r.distance
      rw [distance, hstage, RelayStage.distance]
      omega

/-- As long as a relay of a closed session is not done, it can take a step that brings it nearer to
its end. -/
theorem Coupled.exists_step (h : Coupled bufferSize client target arrived reports shut r)
    (hopen : r.stage ≠ .done) :
    ∃ turn r', r.step true turn = some r' ∧ r'.distance < r.distance := by
  cases hstage : r.stage with
  | done => exact absurd hstage hopen
  | listening =>
    refine ⟨.noticeClosed, r.beginClosing, by simp [step, hstage], ?_⟩
    show 5 + 5 + 1 + r.outward.loops.length + r.inward.loops.length < r.distance
    rw [distance, hstage, RelayStage.distance]
    omega
  | closing out back =>
    by_cases hcalls : ∃ d, r.stage.call d ≠ .returned
    · obtain ⟨d, hcall⟩ := hcalls
      rcases (h.runs d).closeStep_or_abandon hcall with hstep | ⟨l, hloops, htold⟩
      · exact exists_step_of_closeStep ⟨out, back, hstage⟩ hstep
      · exact exists_step_of_told hloops htold
    · have hreturned : ∀ d, r.stage.call d = .returned := fun d =>
        Decidable.byContradiction fun hcall => hcalls ⟨d, hcall⟩
      rw [hstage] at hreturned
      obtain rfl : out = .returned := hreturned .outward
      obtain rfl : back = .returned := hreturned .inward
      refine ⟨.finish, { r.channel.foldl note r with channel := [], stage := .done }, ?_, ?_⟩
      · show r.finish = _
        simp [Relay.finish, hstage]
      · have hout : (r.channel.foldl note r).outward = r.outward := pipe_foldl_note _ r .outward
        have hback : (r.channel.foldl note r).inward = r.inward := pipe_foldl_note _ r .inward
        show 0 + (r.channel.foldl note r).outward.loops.length +
          (r.channel.foldl note r).inward.loops.length < r.distance
        rw [hout, hback, distance, hstage, RelayStage.distance]
        omega

theorem act_of_step {r' : Relay} {isClosed : Bool} {turn : RelayTurn}
    (h : r.step isClosed turn = some r') : r.act (.turn isClosed turn) = r' := by
  rw [act, h, Option.getD_some]

/-- A relay of a closed session comes to its outcome by steps of its own. -/
theorem Coupled.exists_outcome (h : Coupled bufferSize client target arrived reports shut r) :
    ∃ ts, (r.after (turns true ts)).outcome?.isSome := by
  -- A step says only that the distance is less, and not by how much.
  induction hn : r.distance using Nat.strongRecOn generalizing r arrived reports shut with
  | ind n ih =>
    by_cases hdone : r.stage = .done
    · refine ⟨[], ?_⟩
      show r.outcome?.isSome
      simp [outcome?, hdone]
    · obtain ⟨turn, r', hstep, hlt⟩ := h.exists_step hdone
      have hnext := h.turn hstep
      obtain ⟨ts, hts⟩ := ih r'.distance (hn ▸ hlt) hnext rfl
      refine ⟨turn :: ts, ?_⟩
      show ((r.act (.turn true turn)).after (turns true ts)).outcome?.isSome
      rw [act_of_step hstep]
      exact hts

end Relay

end Socks5
