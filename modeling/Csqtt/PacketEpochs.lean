import Mathlib.Algebra.Order.Ring.Nat
import Mathlib.Data.List.Basic

/-!
# Epochs of a packet queue

Senders stamp a packet with the epoch they have read and push it later; the receiver ends
an epoch and purges the queue while they do. Each step below is one atomic step of a sender
or of the receiver. The number of stores to the state is kept beside it, to tell what a
packet has outlived.
-/

namespace Csqtt

/-- A packet with its epoch, and how often the state had been stored when it was read. -/
structure QueuedPacket (α : Type) where
  packet : α
  epoch : ℕ
  stores : ℕ

/-- Where the receiver is in one of its calls. -/
inductive ReceiverPhase (α : Type)
  | idle
  | resumeLoaded (previous : ℕ)
  | resumePurging (epoch : ℕ)
  | activating (epoch : ℕ)
  | suspendLoaded (state : ℕ)
  | suspendPurging
  | receiving
  | popped (queued : QueuedPacket α)

/-- The queue, the packets that senders hold, and those that were returned, each with the
number of stores at that time. -/
structure PacketQueue (α : Type) where
  capacity : ℕ
  state : ℕ
  queue : List (QueuedPacket α) := []
  stores : ℕ := 0
  held : List (QueuedPacket α) := []
  receiver : ReceiverPhase α := .idle
  returned : List (QueuedPacket α × ℕ) := []

inductive QueueStep (α : Type)
  | load (packet : α)
  | push (sender : ℕ) (force : Bool)
  | resume
  | suspend
  | receive
  | advance

variable {α : Type}

def QueueStep.isResume : QueueStep α → Bool
  | .resume => true
  | _ => false

namespace PacketQueue

def packetChannel (capacity : ℕ) (active : Bool) : PacketQueue α :=
  { capacity := max capacity 1, state := active.toNat }

def store (q : PacketQueue α) (state : ℕ) (receiver : ReceiverPhase α) : PacketQueue α :=
  { q with state, stores := q.stores + 1, receiver }

/-- The next step of the call the receiver is in. -/
def advance (q : PacketQueue α) : PacketQueue α :=
  match q.receiver with
  | .idle => q
  | .resumeLoaded previous =>
    let epoch := min (previous + 1) (2 ^ 64 - 1)
    q.store (epoch * 2 % 2 ^ 64) (.resumePurging epoch)
  | .resumePurging epoch =>
    match q.queue with
    | [] => { q with receiver := .activating epoch }
    | _ :: queue => { q with queue }
  | .activating epoch => q.store (epoch * 2 % 2 ^ 64 + 1) .idle
  | .suspendLoaded state => q.store (state / 2 * 2) .suspendPurging
  | .suspendPurging =>
    match q.queue with
    | [] => { q with receiver := .idle }
    | _ :: queue => { q with queue }
  | .receiving =>
    match q.queue with
    | [] => { q with receiver := .idle }
    | queued :: queue => { q with queue, receiver := .popped queued }
  | .popped queued =>
    if q.state % 2 = 1 ∧ queued.epoch = q.state / 2 then
      { q with returned := (queued, q.stores) :: q.returned, receiver := .idle }
    else { q with receiver := .receiving }

/-- A call of the receiver begins when it is in no other. -/
def call (q : PacketQueue α) (receiver : ReceiverPhase α) : PacketQueue α :=
  match q.receiver with
  | .idle => { q with receiver }
  | _ => q

/-- A sender reads the state. -/
def load (q : PacketQueue α) (packet : α) : PacketQueue α :=
  if q.state % 2 = 1 then { q with held := ⟨packet, q.state / 2, q.stores⟩ :: q.held } else q

/-- A sender pushes what it holds; `force_push` takes the place of the oldest packet. -/
def push (q : PacketQueue α) (sender : ℕ) (force : Bool) : PacketQueue α :=
  match q.held[sender]? with
  | none => q
  | some queued =>
    let q := { q with held := q.held.eraseIdx sender }
    if q.queue.length < q.capacity then { q with queue := q.queue ++ [queued] }
    else if force then { q with queue := q.queue.tail ++ [queued] }
    else q

def step (q : PacketQueue α) : QueueStep α → PacketQueue α
  | .load packet => q.load packet
  | .push sender force => q.push sender force
  | .resume => q.call (.resumeLoaded (q.state / 2))
  | .suspend => q.call (.suspendLoaded q.state)
  | .receive => q.call .receiving
  | .advance => q.advance

def Live (q : PacketQueue α) (queued : QueuedPacket α) : Prop :=
  queued ∈ q.held ∨ queued ∈ q.queue ∨ q.receiver = .popped queued

/-- What the receiver has read is still so, and while it resumes every packet is of an
earlier epoch. -/
def Phased (q : PacketQueue α) (resumes : ℕ) : ReceiverPhase α → Prop
  | .resumeLoaded previous => previous = q.state / 2 ∧ previous < resumes
  | .resumePurging epoch | .activating epoch =>
    epoch = q.state / 2 ∧ q.state % 2 = 0 ∧ ∀ queued, q.Live queued → queued.epoch < epoch
  | .suspendLoaded state => state = q.state
  | _ => True

/-- A packet of the running epoch has been stamped since the last store. -/
structure Fresh (q : PacketQueue α) (resumes : ℕ) : Prop where
  epoch : ∀ queued, q.Live queued → queued.epoch ≤ q.state / 2
  stores : ∀ queued, q.Live queued → q.state % 2 = 1 → queued.epoch = q.state / 2 →
    queued.stores = q.stores
  phased : q.Phased resumes q.receiver
  resumes : q.state / 2 ≤ resumes
  returned : ∀ x ∈ q.returned, x.1.stores = x.2

variable {q q' : PacketQueue α} {n m : ℕ}

theorem fresh_packetChannel (capacity : ℕ) (active : Bool) :
    (packetChannel capacity active : PacketQueue α).Fresh 0 := by
  have hn (queued : QueuedPacket α) : ¬ (packetChannel capacity active).Live queued := by
    simp [Live, packetChannel]
  refine ⟨fun queued h => absurd h (hn queued), fun queued h => absurd h (hn queued), trivial,
    ?_, nofun⟩
  cases active <;> simp [packetChannel]

variable {receiver : ReceiverPhase α}

theorem Phased.mono (h : q.Phased n receiver) (hnm : n ≤ m) (hs : q'.state = q.state)
    (hl : ∀ queued, q'.Live queued → q.Live queued) : q'.Phased m receiver := by
  cases receiver with
  | resumeLoaded => exact ⟨h.1.trans (by rw [hs]), h.2.trans_le hnm⟩
  | resumePurging | activating =>
      exact ⟨h.1.trans (by rw [hs]), hs ▸ h.2.1, fun x hx => h.2.2 x (hl x hx)⟩
  | suspendLoaded => exact h.trans hs.symm
  | _ => trivial

section

variable (h : q.Fresh n)
include h

/-- Steps that store nothing and stamp nothing. -/
theorem Fresh.mono (hnm : n ≤ m) (hs : q'.state = q.state) (hstores : q'.stores = q.stores)
    (hl : ∀ queued, q'.Live queued → q.Live queued) (hp : q'.Phased m q'.receiver)
    (hr : ∀ x ∈ q'.returned, x.1.stores = x.2) : q'.Fresh m := by
  refine ⟨fun x hx => ?_, fun x hx ha he => ?_, hp, ?_, hr⟩
  · rw [hs]
    exact h.epoch x (hl x hx)
  · rw [hs] at ha he
    rw [hstores]
    exact h.stores x (hl x hx) ha he
  · rw [hs]
    exact h.resumes.trans hnm

/-- Packets leave the queue, one of them to the receiver. -/
theorem Fresh.drop (hnm : n ≤ m) {queue : List (QueuedPacket α)} (hq : ∀ x ∈ queue, x ∈ q.queue)
    (hp : ∀ x, receiver = .popped x → x ∈ q.queue) (hphase : q.Phased m receiver) :
    Fresh { q with queue, receiver } m := by
  have hl : ∀ x, Live { q with queue, receiver } x → q.Live x := by
    rintro x (hx | hx | hx)
    · exact .inl hx
    · exact .inr (.inl (hq x hx))
    · exact .inr (.inl (hp x hx))
  exact h.mono hnm rfl rfl hl (hphase.mono le_rfl rfl hl) h.returned

theorem Fresh.call (hnm : n ≤ m) (hp : q.Phased m receiver)
    (hpop : ∀ queued, receiver ≠ .popped queued) : (q.call receiver).Fresh m := by
  unfold PacketQueue.call
  split
  · exact h.drop hnm (fun _ hx => hx) (fun x hx => absurd hx (hpop x)) hp
  · exact h.mono hnm rfl rfl (fun _ hx => hx) (h.phased.mono hnm rfl fun _ hx => hx) h.returned

theorem Fresh.load (packet : α) : (q.load packet).Fresh n := by
  unfold PacketQueue.load
  split_ifs with ha
  · have hl : ∀ x, Live { q with held := ⟨packet, q.state / 2, q.stores⟩ :: q.held } x →
        x = ⟨packet, q.state / 2, q.stores⟩ ∨ q.Live x := by
      rintro x (hx | hx)
      · exact (List.mem_cons.mp hx).imp_right .inl
      · exact .inr (.inr hx)
    refine ⟨fun x hx => ?_, fun x hx hac he => ?_, ?_, h.resumes, h.returned⟩
    · rcases hl x hx with rfl | hx
      · exact le_rfl
      · exact h.epoch x hx
    · rcases hl x hx with rfl | hx
      · rfl
      · exact h.stores x hx hac he
    · have hp := h.phased
      revert hp
      cases q.receiver with
      | resumePurging | activating =>
          intro hp
          rw [hp.2.1] at ha
          cases ha
      | _ => exact id
  · exact h

theorem Fresh.push (sender : ℕ) (force : Bool) : (q.push sender force).Fresh n := by
  unfold PacketQueue.push
  split
  · exact h
  · rename_i queued hh
    have hm : queued ∈ q.held := List.mem_of_getElem? hh
    have hq : ∀ queue : List (QueuedPacket α), (∀ x ∈ queue, x = queued ∨ x ∈ q.queue) →
        Fresh { q with held := q.held.eraseIdx sender, queue } n := by
      intro queue hq
      have hl : ∀ x, Live { q with held := q.held.eraseIdx sender, queue } x → q.Live x := by
        rintro x (hx | hx | hx)
        · exact .inl (List.mem_of_mem_eraseIdx hx)
        · rcases hq x hx with rfl | hx
          · exact .inl hm
          · exact .inr (.inl hx)
        · exact .inr (.inr hx)
      exact h.mono le_rfl rfl rfl hl (h.phased.mono le_rfl rfl hl) h.returned
    dsimp only
    split_ifs
    · exact hq _ fun x hx => by simpa [or_comm] using hx
    · refine hq _ fun x hx => ?_
      rcases List.mem_append.mp hx with hx | hx
      · exact .inr (List.mem_of_mem_tail hx)
      · exact .inl (List.mem_singleton.mp hx)
    · exact hq _ fun x hx => .inr hx

/-- After a store no packet is of a running epoch. -/
theorem Fresh.store {state : ℕ} (hn : state / 2 ≤ n)
    (hl : ∀ x, (q.store state receiver).Live x → q.Live x)
    (he : ∀ x, q.Live x → x.epoch ≤ state / 2 ∧ (state % 2 = 1 → x.epoch < state / 2))
    (hp : (q.store state receiver).Phased n receiver) : (q.store state receiver).Fresh n :=
  ⟨fun x hx => (he x (hl x hx)).1,
    fun x hx ha heq => absurd heq ((he x (hl x hx)).2 ha).ne, hp, hn, h.returned⟩

theorem Fresh.advance (hn : n < 2 ^ 63) : q.advance.Fresh n := by
  have hr := h.resumes
  have hp := h.phased
  have hs : ∀ x ∈ q.queue, x ∈ q.queue := fun _ hx => hx
  have ht : ∀ x ∈ q.queue.tail, x ∈ q.queue := fun _ => List.mem_of_mem_tail
  have hl : ∀ state receiver, (∀ x, receiver ≠ .popped x) →
      ∀ x, (q.store state receiver).Live x → q.Live x := by
    rintro state receiver hpop x (hx | hx | hx)
    · exact .inl hx
    · exact .inr (.inl hx)
    · exact absurd hx (hpop x)
  obtain ⟨capacity, state, queue, stores, held, receiver, returned⟩ := q
  cases receiver with
  | idle => exact h
  | resumeLoaded previous =>
      obtain ⟨hlo, hlt⟩ := hp
      obtain rfl : previous = state / 2 := hlo
      simp only [PacketQueue.advance] at *
      rw [Nat.min_eq_left (by omega), Nat.mod_eq_of_lt (by omega)]
      refine h.store (by omega) (hl _ _ nofun) (fun x hx => ?_) ⟨?_, ?_, fun x hx => ?_⟩
      · have hle := h.epoch x hx
        dsimp only at hle
        omega
      · simp [PacketQueue.store]
      · simp [PacketQueue.store]
      · exact Nat.lt_succ_of_le (h.epoch x (hl _ (.resumePurging _) nofun x hx))
  | resumePurging epoch =>
      cases queue with
      | nil => exact h.drop le_rfl hs nofun hp
      | cons => exact h.drop le_rfl ht nofun hp
  | activating epoch =>
      obtain ⟨hlo, he, hstores⟩ := hp
      obtain rfl : epoch = state / 2 := hlo
      simp only [PacketQueue.advance] at *
      rw [Nat.mod_eq_of_lt (by omega)]
      refine h.store (by omega) (hl _ _ nofun) (fun x hx => ?_) trivial
      have hlt := hstores x hx
      omega
  | suspendLoaded loaded =>
      obtain rfl : loaded = state := hp
      simp only [PacketQueue.advance] at *
      refine h.store (by omega) (hl _ _ nofun) (fun x hx => ?_) trivial
      have hle := h.epoch x hx
      dsimp only at hle
      omega
  | suspendPurging =>
      cases queue with
      | nil => exact h.drop le_rfl hs nofun trivial
      | cons => exact h.drop le_rfl ht nofun trivial
  | receiving =>
      cases queue with
      | nil => exact h.drop le_rfl hs nofun trivial
      | cons first queue =>
          refine h.drop le_rfl ht (fun x hx => ?_) trivial
          cases hx
          exact List.mem_cons_self
  | popped queued =>
      simp only [PacketQueue.advance]
      split_ifs with ha
      · have hid := h.drop le_rfl hs (nofun : ∀ x, ReceiverPhase.idle = .popped x → _) trivial
        refine ⟨hid.epoch, hid.stores, trivial, hr, fun x hx => ?_⟩
        rcases List.mem_cons.mp hx with rfl | hx
        · exact h.stores queued (.inr (.inr rfl)) ha.1 ha.2
        · exact h.returned x hx
      · exact h.drop le_rfl hs nofun trivial

theorem fresh_step (step : QueueStep α) (hn : n + step.isResume.toNat < 2 ^ 63) :
    (q.step step).Fresh (n + step.isResume.toNat) := by
  cases step with
  | load packet => exact h.load packet
  | push sender force => exact h.push sender force
  | resume => exact h.call (Nat.le_succ n) ⟨rfl, Nat.lt_succ_of_le h.resumes⟩ nofun
  | suspend => exact h.call le_rfl rfl nofun
  | receive => exact h.call le_rfl trivial nofun
  | advance => exact h.advance hn

theorem fresh_run {steps : List (QueueStep α)} (hn : n + steps.countP QueueStep.isResume < 2 ^ 63) :
    (steps.foldl step q).Fresh (n + steps.countP QueueStep.isResume) := by
  induction steps generalizing q n with
  | nil => exact h
  | cons step steps ih =>
      have hc : (step :: steps).countP QueueStep.isResume =
          step.isResume.toNat + steps.countP QueueStep.isResume := by
        rw [List.countP_cons, Nat.add_comm]
        cases step <;> rfl
      rw [hc, ← Nat.add_assoc] at hn ⊢
      exact ih (fresh_step h step (by omega)) hn

end

/-- A packet that is returned has been stamped after every store of the receiver, so it has
outlived no resume and no suspend. -/
theorem returned_unresumed (capacity : ℕ) (active : Bool) (steps : List (QueueStep α))
    (hr : steps.countP QueueStep.isResume < 2 ^ 63) :
    ∀ x ∈ (steps.foldl step (packetChannel capacity active)).returned, x.1.stores = x.2 :=
  (fresh_run (fresh_packetChannel capacity active) (by rwa [Nat.zero_add])).returned

/-- One packet is received, another one outlives a resume. -/
theorem returned_unresumed_stale :
    let steps := [.load 1, .load 2, .push 0 false, .receive, .advance, .advance, .resume, .advance,
      .advance, .advance, .push 0 true, .receive, .advance, .advance, .advance]
    let q := steps.foldl step (packetChannel 4 true : PacketQueue ℕ)
    q.returned.map (·.1.packet) = [2] ∧ ∀ x ∈ q.returned, x.1.stores = x.2 :=
  ⟨rfl, returned_unresumed 4 true _ (by decide)⟩

end PacketQueue
end Csqtt
