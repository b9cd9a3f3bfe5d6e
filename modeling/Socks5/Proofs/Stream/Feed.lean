import Mathlib.Data.List.Induction
import Socks5.Proofs.Stream.Writing
import Socks5.Proofs.Terms
import Socks5.Proofs.Wire.Opening

/-!
# Streams that are fed

A stream that brings given bytes in pieces of any size and takes whatever is written. A message is
read from such a stream exactly if its bytes lead the feed (`leads_run_fed`), and every message is
taken by it (`leads_send_fed`).
-/

namespace Socks5

/-- What a stream brings: some bytes, and then perhaps its end or a fault. -/
structure Feed where
  bytes : Bytes
  ending : Option (Except IoFailure Unit) := none

namespace Feed

/-- What the stream answers when it has brought the bytes `heard` already. -/
def Brings (feed : Feed) (heard : Bytes) : Exchange Streams → Prop
  | ⟨.read _, .ok (some piece)⟩ => heard ++ piece.bytes <+: feed.bytes
  | ⟨.read _, .ok none⟩ => heard = feed.bytes ∧ feed.ending = some (.ok ())
  | ⟨.read _, .error cause⟩ => heard = feed.bytes ∧ feed.ending = some (.error cause)
  | ⟨.write _, .ok count⟩ => 0 < count.val
  | ⟨.flush, .ok ()⟩ => True
  | _ => False

/-- The terms of a stream that is fed, and has brought `before` already. -/
def streamTerms (feed : Feed) (before : Bytes) : Terms Streams where
  allows past x := feed.Brings (before ++ Stream.heard past) x
  permits _ _ := True

variable {feed feed' : Feed} {before rest : Bytes} {d : Dialogue Streams}

/-- Nothing is brought but what lies ahead. -/
theorem Brings.isPrefix {heard : Bytes} {x : Exchange Streams} (h : feed.Brings heard x)
    (hpast : heard <+: feed.bytes) : heard ++ Stream.heardIn x <+: feed.bytes := by
  match x with
  | ⟨.read _, .ok (some _)⟩ => exact h
  | ⟨.read _, .ok none⟩ => simpa [Stream.heardIn] using hpast
  | ⟨.read _, .error _⟩ => simpa [Stream.heardIn] using hpast
  | ⟨.write _, _⟩ => simpa [Stream.heardIn] using hpast
  | ⟨.flush, _⟩ => simpa [Stream.heardIn] using hpast

/-- While something is left of the feed, the stream has something to bring. -/
theorem exists_brings {heard rest : Bytes} {room : Nat} (hroom : 0 < room)
    (hleft : heard ++ rest = feed.bytes) (hmore : rest ≠ []) :
    ∃ answer, feed.Brings heard ⟨.read room, answer⟩ := by
  cases rest with
  | nil => exact absurd rfl hmore
  | cons b rest =>
    refine ⟨.ok (some ⟨[b], Nat.one_pos, hroom⟩), ?_⟩
    show heard ++ [b] <+: feed.bytes
    rw [← hleft]
    exact ⟨rest, by simp⟩

/-- A read that breaks off finds nothing left of the feed but its end. -/
theorem Brings.ends {heard : Bytes} {field : Field} {room : Nat}
    {stop : Except IoFailure (Option (Stream.Piece room))} {e : Failure}
    (h : feed.Brings heard ⟨.read room, stop⟩) (hstop : Stream.failureOf field stop = some e) :
    heard = feed.bytes ∧ feed.ending ≠ none := by
  match stop with
  | .ok none =>
    obtain ⟨hall, hend⟩ : heard = feed.bytes ∧ feed.ending = some (.ok ()) := h
    exact ⟨hall, by simp [hend]⟩
  | .error cause =>
    obtain ⟨hall, hend⟩ : heard = feed.bytes ∧ feed.ending = some (.error cause) := h
    exact ⟨hall, by simp [hend]⟩
  | .ok (some _) => cases hstop

/-- Writing is not given up on a stream that is fed. -/
theorem Brings.causeOf_eq_none {heard message : Bytes}
    {stop : Except IoFailure (Fin (message.length + 1))}
    (h : feed.Brings heard ⟨.write message, stop⟩) : Stream.causeOf stop = none := by
  match stop with
  | .ok count =>
    have hpos : 0 < count.val := h
    rw [Stream.causeOf, if_neg (by omega)]
  | .error _ => exact h.elim

/-- A feed that may go on brings what it brings also when it has gone on. -/
theorem Brings.mono {heard : Bytes} {x : Exchange Streams} (h : feed.Brings heard x)
    (hopen : feed.ending = none) (hbytes : feed.bytes <+: feed'.bytes) : feed'.Brings heard x := by
  match x with
  | ⟨.read _, .ok (some _)⟩ => exact List.IsPrefix.trans h hbytes
  | ⟨.read _, .ok none⟩ =>
    have hend : feed.ending = some (.ok ()) := h.2
    rw [hopen] at hend
    cases hend
  | ⟨.read _, .error cause⟩ =>
    have hend : feed.ending = some (.error cause) := h.2
    rw [hopen] at hend
    cases hend
  | ⟨.write _, .ok _⟩ => exact h
  | ⟨.flush, .ok ()⟩ => trivial

/-- What was brought leads what lay ahead. -/
theorem exists_rest (hd : (feed.streamTerms before).Honoured [] d)
    (hrest : before ++ rest = feed.bytes) : ∃ rest', rest = Stream.heard d ++ rest' := by
  have hfront : before ++ Stream.heard d <+: feed.bytes := by
    induction d using List.reverseRecOn with
    | nil => exact ⟨rest, by simpa using hrest⟩
    | append_singleton d x ih =>
      obtain ⟨hd, hx, _⟩ := Terms.honoured_append.1 hd
      have hbrings : feed.Brings (before ++ Stream.heard d) x := hx
      have hnext := hbrings.isPrefix (ih hd)
      rw [Stream.heard_append, ← List.append_assoc]
      simpa [Stream.heard] using hnext
  rw [← hrest, List.prefix_append_right_inj] at hfront
  obtain ⟨rest', hrest'⟩ := hfront
  exact ⟨rest', hrest'.symm⟩

end Feed

namespace Stream

open Socks5.Task (Leads)

variable {α : Type} {feed : Feed} {before rest bytes : Bytes} {d : Dialogue Streams}

/-- What becomes of a reader on a stream that is fed: it reads a message from the front of what is
ahead, and `rest'` is left; or there is none, so that it fails, or waits if nothing more comes. It
fails for want of bytes only where the feed has an end. -/
inductive Fared (feed : Feed) (heard : Bytes) (dec : Decoder α) (rest rest' : Bytes) :
    Task Streams α → Prop where
  | reads {a : α} (parse : dec.parse rest = .finished (.ok a) rest') :
      Fared feed heard dec rest rest' (.done a)
  | fails {e : Failure} (unread : ∀ a left, dec.parse rest ≠ .finished (.ok a) left)
      (ended : ∀ field, dec.parse rest = .lacking field → feed.ending ≠ none) :
      Fared feed heard dec rest rest' (.fail e)
  | waits {q : Ask} {next} (unread : (∀ answer, ¬ feed.Brings heard ⟨q, answer⟩) →
      ∀ a left, dec.parse rest ≠ .finished (.ok a) left) :
      Fared feed heard dec rest rest' (.ask (I := Streams) q next)

/-- A message is read from a feed exactly if its bytes lead the feed. -/
theorem leads_run_fed {dec : Decoder α} {u : Task Streams α} (hl : Leads (run dec) d u)
    (hd : (feed.streamTerms before).Honoured [] d) (hrest : before ++ rest = feed.bytes) :
    ∃ rest', rest = heard d ++ rest' ∧ Fared feed (before ++ heard d) dec rest rest' u := by
  obtain ⟨rest', hsplit⟩ := Feed.exists_rest hd hrest
  refine ⟨rest', hsplit, ?_⟩
  cases leads_run hl with
  | @waits _ field room _ pieces lacks hroom =>
    refine .waits fun hnone a left => ?_
    -- with something left of the feed, the stream would have an answer
    have hnil : rest' = [] := by
      by_cases hmore : rest' = []
      · exact hmore
      · have hleft : before ++ heard d ++ rest' = feed.bytes := by
          rw [List.append_assoc, ← hsplit, hrest]
        obtain ⟨answer, hanswer⟩ := Feed.exists_brings hroom hleft hmore
        exact absurd hanswer (hnone answer)
    rw [hsplit, hnil, List.append_nil, lacks]
    exact nofun
  | @settled _ result pieces reads =>
    have hparse := Decoder.parse_append reads rest'
    rw [List.nil_append, ← hsplit] at hparse
    cases result with
    | ok a => exact .reads hparse
    | error e =>
      refine .fails ?_ ?_
      · intro a left
        rw [hparse]
        exact nofun
      · intro field
        rw [hparse]
        exact nofun
  | @broke d₁ field room stop e pieces lacks breaks =>
    have hbrings : feed.Brings (before ++ heard d₁) ⟨.read room, stop⟩ :=
      (Terms.honoured_append.1 hd).2.1
    obtain ⟨hbytes, hends⟩ := hbrings.ends breaks
    rw [← hrest, List.append_cancel_left_eq] at hbytes
    refine .fails ?_ fun _ _ => hends
    intro a left
    rw [← hbytes, lacks]
    exact nofun

/-- A stream that is fed takes every message. -/
theorem leads_send_fed {u : Task Streams Unit} (hl : Leads (send (.ok bytes)) d u)
    (hd : (feed.streamTerms before).Honoured [] d) :
    (u = .done () ∧ taken d = bytes) ∨
      ∃ q next, u = .ask (I := Streams) q next ∧
        ∃ answer, feed.Brings (before ++ heard d) ⟨q, answer⟩ := by
  cases leads_send hl with
  | @writes _ left _ takings split more =>
    exact .inr ⟨_, _, rfl, .ok (Fin.last left.length), List.length_pos_iff.2 more⟩
  | flushes takings all => exact .inr ⟨_, _, rfl, .ok (), trivial⟩
  | complete takings all =>
    refine .inl ⟨rfl, ?_⟩
    rw [taken_append, all]
    exact List.append_nil bytes
  | @broke d₁ left stop cause takings split more breaks =>
    have hbrings : feed.Brings (before ++ heard d₁) ⟨.write left, stop⟩ :=
      (Terms.honoured_append.1 hd).2.1
    rw [hbrings.causeOf_eq_none] at breaks
    cases breaks
  | stuck takings all => exact (Terms.honoured_append.1 hd).2.1.elim

end Stream

end Socks5
