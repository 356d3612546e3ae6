import Reveille.Proofs.Bus.Channel
import Reveille.Proofs.Program.Safe
import Reveille.Proofs.System.Deed

/-!
# What the answer to a request does to the queue

`Passage` lists the ways in which a request about the queue can be answered, whether the bus is open,
closing or closed, with the reply and what becomes of the channel.  Every answered request is one of
them (`passage_of_perform`).  An item gets into the queue only while the bus is open, and by nothing but
the requests that say so (`Passage.queue`).
-/

namespace Reveille.System

variable {D : Domain} {c : Cast D} {a : Actor} {s s' : System D} {q : Request D}

abbrev Queue (D : Domain) := Bus.Channel Actor (Bus.Command (Receiver D) D.Event)

/-- Requests that are not about getting into the queue or closing it. -/
def Request.Apart : Request D → Prop
  | .enter | .requestSlot | .awaitSlot | .commit _ | .trySend _ | .beginClose => False
  | _ => True

def Request.Panics : Request D → Prop
  | .panic _ | .release _ | .call _ => True
  | _ => False

inductive Passage (a : Actor) (ch : Queue D) : (q : Request D) → q.Reply → Queue D → Prop
  | entered (accepting : ch.accepting = true) :
      Passage a ch .enter true { ch with entered := a :: ch.entered }
  | shutOut (closed : ch.accepting = false) : Passage a ch .enter false ch
  | requestSlot : Passage a ch .requestSlot () (ch.requestSlot a)
  | granted (listening : ch.listening = true) (held : a ∈ ch.granted) : Passage a ch .awaitSlot true ch
  | sentAway (gone : ch.listening = false) : Passage a ch .awaitSlot false (ch.withdraw a)
  | committed (accepting : ch.accepting = true) (item : Bus.Command (Receiver D) D.Event) :
      Passage a ch (.commit item) true
        { ch with queue := ch.queue ++ [item], granted := ch.granted.erase a }
  | gaveUp (closed : ch.accepting = false) (item : Bus.Command (Receiver D) D.Event) :
      Passage a ch (.commit item) false (ch.withdraw a)
  | sent (accepting : ch.accepting = true) (room : ch.free ≠ 0) (e : D.Event) :
      Passage a ch (.trySend e) (.ok ()) { ch with queue := ch.queue ++ [.event e] }
  | full (accepting : ch.accepting = true) (e : D.Event) : Passage a ch (.trySend e) (.error .full) ch
  | refused (closed : ch.accepting = false ∨ ch.listening = false) (e : D.Event) :
      Passage a ch (.trySend e) (.error .closed) ch
  | closed (accepting : ch.accepting = true) : Passage a ch .beginClose true ch.close
  | closedBefore (closed : ch.accepting = false) : Passage a ch .beginClose false ch
  | apart {q : Request D} {reply : q.Reply} (apart : q.Apart) : Passage a ch q reply ch

def committed? : Exchange D.requests → Option (Bus.Command (Receiver D) D.Event)
  | ⟨.commit item, (reply : Bool)⟩ => if reply then some item else none
  | ⟨.trySend e, (reply : Except BusError Unit)⟩ => if reply.toBool then some (.event e) else none
  | _ => none

theorem passage_of_perform {reply : q.Reply} (h : s.perform c a q = some (.reply reply, s')) :
    Passage a s.channel q reply s'.channel := by
  cases performed_of_perform h with
  | readTime source => cases source <;> exact .apart trivial
  | entered accepting => exact .entered accepting
  | shutOut closed => exact .shutOut closed
  | slotRequested => exact .requestSlot
  | granted listening held => exact .granted listening held
  | sentAway gone => exact .sentAway gone
  | committed accepting item => exact .committed accepting item
  | gaveUp closed item => exact .gaveUp closed item
  | sent accepting _ room e => exact .sent accepting room e
  | full accepting _ _ e => exact .full accepting e
  | refused closed e => exact .refused closed e
  | beginClose =>
    cases hacc : s.channel.accepting with
    | true => exact .closed hacc
    | false =>
      show Passage a s.channel _ _ s.channel.close
      rw [Bus.Channel.close_of_closed hacc]
      exact .closedBefore hacc
  | _ => exact .apart trivial

theorem Request.Panics.apart (h : q.Panics) : q.Apart := by
  cases q <;> first | exact trivial | exact False.elim h

theorem channel_of_panicked {p : Panic} (h : s.perform c a q = some (.panicked p, s')) :
    q.Panics ∧ s'.channel = s.channel := by
  cases performed_of_perform h <;> exact ⟨trivial, rfl⟩

namespace Passage

variable {ch ch' : Queue D} {reply : q.Reply}

theorem queue (h : Passage a ch q reply ch') :
    ch'.queue = ch.queue ++ (committed? ⟨q, reply⟩).toList := by
  have nothing {l : List (Bus.Command (Receiver D) D.Event)} : l = l ++ [] := (List.append_nil l).symm
  cases h with
  | requestSlot => exact Bus.Channel.promote_same.2.1.trans nothing
  | sentAway _ => exact Bus.Channel.withdraw_same.2.1.trans nothing
  | gaveUp _ item => exact Bus.Channel.withdraw_same.2.1.trans nothing
  | committed _ item => rfl
  | sent _ _ e => rfl
  | apart hq =>
    have hnone : committed? ⟨q, reply⟩ = none := by
      cases q with
      | commit item => exact False.elim hq
      | trySend e => exact False.elim hq
      | _ => rfl
    rw [hnone]
    exact nothing
  | _ => exact nothing

/-- Nothing but closing changes whether senders are let in, and nothing whether the worker is there. -/
theorem gates (h : Passage a ch q reply ch') :
    ch'.listening = ch.listening ∧
      (ch'.accepting = ch.accepting ∨ q = .beginClose ∧ ch'.accepting = false) := by
  cases h with
  | requestSlot => exact ⟨Bus.Channel.promote_same.2.2.2, Or.inl Bus.Channel.promote_same.2.2.1⟩
  | sentAway _ => exact ⟨Bus.Channel.promote_same.2.2.2, Or.inl Bus.Channel.withdraw_same.2.2.1⟩
  | gaveUp _ item => exact ⟨Bus.Channel.promote_same.2.2.2, Or.inl Bus.Channel.withdraw_same.2.2.1⟩
  | closed _ => exact ⟨rfl, Or.inr ⟨rfl, rfl⟩⟩
  | _ => exact ⟨rfl, Or.inl rfl⟩

end Passage

end Reveille.System
