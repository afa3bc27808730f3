import Mathlib.Data.List.Perm.Subperm
import Csqtt.ClientProxy
import Csqtt.Runs

/-!
# How many streams the client has

The accept loop compares the entries of `streams` with `max_streams` and starts a handler, which
reads the handshake before it enters a stream. So the loop does not see the handlers that have no
entry yet. If it counted handlers, the entries would stay within the limit.
-/

namespace Csqtt

/-- Where a handler is, as far as the table is concerned. -/
inductive HandlerPhase
  | handshake
  /-- At the top of the loop of `open_tunnel`. -/
  | opening (attempt : ℕ)
  /-- The stream is entered and its OPEN is sent. -/
  | waiting (attempt id : ℕ)
  | connected
  /-- The result is known and the stream is to be taken out. -/
  | leaving
  | ended
  deriving DecidableEq

structure ClientHandler where
  phase : HandlerPhase := .handshake
  streamId : ℕ := 0
  generations : ℕ := 0
  deriving DecidableEq

namespace ClientHandler

def held (h : ClientHandler) : Option ℕ :=
  match h.phase with
  | .waiting _ id => some id
  | .connected => some h.streamId
  | .leaving => some h.streamId
  | _ => none

def atWork (h : ClientHandler) : Bool := h.phase ≠ .ended

theorem atWork_of_held {h : ClientHandler} {id : ℕ} (hid : h.held = some id) : h.atWork = true := by
  unfold atWork
  unfold held at hid
  split at hid <;> simp_all

end ClientHandler

/-- What a handler finds: the handshake, whether the budget of `open_tunnel` is used up, the answer
to an OPEN, a carrier that delivers nothing, or the end of the stream. -/
inductive HandlerInput
  | handshake (ok : Bool)
  | attempt (late : Bool)
  | answer (opened : Bool)
  | switch
  | finish
  | leave

structure StreamListener where
  streams : List ℕ := []
  handlers : List ClientHandler := []
  ids : ℕ := 1

namespace StreamListener

inductive Event
  | accept
  | handler (i : ℕ) (input : HandlerInput)
  /-- The queue of a stream is full: `deliver_inbound` takes its entry out. -/
  | overflow (id : ℕ)

/-- What one operation of a handler does to the table, given the next id: the handler and the
entries afterwards, and whether the id was used. -/
def advance (h : ClientHandler) (streams : List ℕ) (id : ℕ) (input : HandlerInput) :
    ClientHandler × List ℕ × Bool :=
  match h.phase, input with
  | .handshake, .handshake ok =>
    ({ h with phase := if ok then .opening 0 else .ended }, streams, false)
  | .opening attempt, .attempt late =>
    if openAttempts ≤ attempt ∨ late then ({ h with phase := .leaving }, streams, false)
    else ({ h with phase := .waiting attempt id }, streams ++ [id], true)
  | .waiting attempt held, .answer opened =>
    if opened then
      ({ phase := .connected, streamId := held, generations := h.generations + 1 }, streams, false)
    else ({ h with phase := .opening (attempt + 1) }, streams.filter (· ≠ held), false)
  | .connected, .switch =>
    if openAttempts ≤ h.generations then ({ h with phase := .leaving }, streams, false)
    else ({ h with phase := .opening 0 }, streams.filter (· ≠ h.streamId), false)
  | .connected, .finish => ({ h with phase := .leaving }, streams, false)
  | .leaving, .leave => ({ h with phase := .ended }, streams.filter (· ≠ h.streamId), false)
  | _, _ => (h, streams, false)

variable (maxStreams : ℕ)

/-- The accept loop lets a connection in. -/
def passes (s : StreamListener) : Bool := maxStreams = 0 ∨ s.streams.length < maxStreams

def step (s : StreamListener) : Event → StreamListener
  | .accept =>
    if s.passes maxStreams then { s with handlers := s.handlers ++ [{}], ids := s.ids + 1 } else s
  | .handler i input =>
    match s.handlers[i]? with
    | none => s
    | some h =>
      let (h', streams, drawn) := advance h s.streams s.ids input
      { streams, handlers := s.handlers.set i h', ids := if drawn then s.ids + 1 else s.ids }
  | .overflow id => { s with streams := s.streams.filter (· ≠ id) }

/-- The number of handlers that have not ended. -/
def working (s : StreamListener) : ℕ := s.handlers.countP (·.atWork)

/-- A connection is let in only while fewer than `max_streams` handlers are at work. -/
def Roomy (s : StreamListener) : Event → Prop
  | .accept => s.passes maxStreams = true → s.working < maxStreams
  | _ => True

instance (s : StreamListener) (event : Event) : Decidable (Roomy maxStreams s event) :=
  match event with
  | .accept => inferInstanceAs (Decidable (s.passes maxStreams = true → s.working < maxStreams))
  | .handler _ _ => inferInstanceAs (Decidable True)
  | .overflow _ => inferInstanceAs (Decidable True)

variable {maxStreams}

/-- What an operation of a handler can do: entries stay, unless the handler gives them up, and the
only new one is the drawn id, which the handler then holds. An ended handler stays so. -/
structure Advanced (h h' : ClientHandler) (streams streams' : List ℕ) (id : ℕ) (drawn : Bool) :
    Prop where
  entries : ∀ x ∈ streams', x ∈ streams ∧ (h.held = some x → h'.held = some x) ∨
    x = id ∧ drawn = true ∧ h'.held = some x
  sublist : drawn = false → streams'.Sublist streams
  drawn : drawn = true → streams' = streams ++ [id]
  atWork : h'.atWork = true → h.atWork = true

variable {h' h : ClientHandler}

theorem Advanced.stay {streams : List ℕ} {id : ℕ} (hh : ∀ x, h.held = some x → h'.held = some x)
    (hw : h'.atWork = true → h.atWork = true) : Advanced h h' streams streams id false where
  entries x hx := .inl ⟨hx, hh x⟩
  sublist _ := List.Sublist.refl _
  drawn hd := by cases hd
  atWork := hw

theorem Advanced.release {streams : List ℕ} {id held : ℕ} (hh : h.held = some held) :
    Advanced h h' streams (streams.filter (· ≠ held)) id false where
  entries x hx := by
    obtain ⟨hm, hne⟩ := List.mem_filter.mp hx
    refine .inl ⟨hm, fun hx => ?_⟩
    rw [hh] at hx
    simp [Option.some.inj hx] at hne
  sublist _ := List.filter_sublist
  drawn hd := by cases hd
  atWork _ := ClientHandler.atWork_of_held hh

theorem advanced (h : ClientHandler) (streams : List ℕ) (id : ℕ) (input : HandlerInput) :
    Advanced h (advance h streams id input).1 streams (advance h streams id input).2.1 id
      (advance h streams id input).2.2 := by
  obtain ⟨phase, streamId, generations⟩ := h
  unfold advance
  dsimp only
  split
  · exact .stay (fun x hx => by cases hx) (fun _ => rfl)
  · split_ifs
    · exact .stay (fun x hx => by cases hx) (fun _ => rfl)
    · refine ⟨fun x hx => ?_, fun hd => (by cases hd), fun _ => rfl, fun _ => rfl⟩
      obtain hm | hn := List.mem_append.mp hx
      · exact .inl ⟨hm, fun hh => by cases hh⟩
      · rw [List.mem_singleton.mp hn]
        exact .inr ⟨rfl, rfl, rfl⟩
  · split_ifs
    · exact .stay (fun x hx => hx) (fun _ => rfl)
    · exact .release rfl
  · split_ifs
    · exact .stay (fun x hx => hx) (fun _ => rfl)
    · exact .release rfl
  · exact .stay (fun x hx => hx) (fun _ => rfl)
  · exact .release rfl
  · exact .stay (fun x hx => hx) (fun hw => hw)

/-- Each entry is held by a handler, and no id is entered twice. -/
structure Held (s : StreamListener) : Prop where
  nodup : s.streams.Nodup
  below : ∀ id ∈ s.streams, id < s.ids
  holder : ∀ id ∈ s.streams, ∃ (i : ℕ) (h : ClientHandler), s.handlers[i]? = some h ∧
    h.held = some id

variable {s : StreamListener}

theorem Held.length_le (hs : s.Held) : s.streams.length ≤ s.working := by
  have hsub : s.streams.Subperm (s.handlers.filterMap ClientHandler.held) := by
    apply hs.nodup.subperm
    intro id hid
    obtain ⟨i, h, hh, hheld⟩ := hs.holder id hid
    exact List.mem_filterMap.mpr ⟨h, List.mem_of_getElem? hh, hheld⟩
  apply hsub.length_le.trans
  rw [List.length_filterMap_eq_countP]
  apply List.countP_mono_left
  intro h _ hheld
  obtain ⟨id, hid⟩ := Option.isSome_iff_exists.mp hheld
  exact ClientHandler.atWork_of_held hid

theorem held_step (hs : s.Held) (event : Event) : (s.step maxStreams event).Held := by
  cases event with
  | accept =>
    unfold step
    split_ifs
    · refine ⟨hs.nodup, fun id hid => Nat.lt_succ_of_lt (hs.below id hid), fun id hid => ?_⟩
      obtain ⟨i, h, hh, hheld⟩ := hs.holder id hid
      exact ⟨i, h, by rw [List.getElem?_append_left (List.getElem?_eq_some_iff.mp hh).1, hh], hheld⟩
    · exact hs
  | overflow id =>
    have hsub : (s.streams.filter (· ≠ id)).Sublist s.streams := List.filter_sublist
    exact ⟨hs.nodup.sublist hsub, fun x hx => hs.below x (hsub.subset hx),
      fun x hx => hs.holder x (hsub.subset hx)⟩
  | handler i input =>
    cases hi : s.handlers[i]? with
    | none =>
      simp only [step, hi]
      exact hs
    | some h =>
      have hadvance := advanced h s.streams s.ids input
      simp only [step, hi]
      generalize advance h s.streams s.ids input = result at hadvance ⊢
      obtain ⟨h', streams', drawn⟩ := result
      refine ⟨?_, ?_, ?_⟩
      · cases drawn with
        | false => exact hs.nodup.sublist (hadvance.sublist rfl)
        | true =>
          rw [hadvance.drawn rfl, List.nodup_append_comm]
          exact List.nodup_cons.mpr
            ⟨fun hmem => (hs.below _ hmem).false, hs.nodup⟩
      · intro x hx
        obtain ⟨hmem, -⟩ | ⟨rfl, rfl, -⟩ := hadvance.entries x hx
        · have hlt := hs.below x hmem
          dsimp only
          split_ifs <;> omega
        · exact Nat.lt_succ_self _
      · intro x hx
        have hlt := (List.getElem?_eq_some_iff.mp hi).1
        have hself : (s.handlers.set i h')[i]? = some h' := List.getElem?_set_self hlt
        obtain ⟨hmem, hkeep⟩ | ⟨-, -, hheld⟩ := hadvance.entries x hx
        · obtain ⟨j, g, hg, hheld⟩ := hs.holder x hmem
          by_cases hj : j = i
          · rw [hj, hi] at hg
            cases hg
            exact ⟨i, h', hself, hkeep hheld⟩
          · exact ⟨j, g, by rw [List.getElem?_set_ne (Ne.symm hj), hg], hheld⟩
        · exact ⟨i, h', hself, hheld⟩

theorem countP_set_le {p : ClientHandler → Bool} {handlers : List ClientHandler} {i : ℕ}
    (hi : handlers[i]? = some h) (hp : p h' = true → p h = true) :
    (handlers.set i h').countP p ≤ handlers.countP p := by
  obtain ⟨hlt, hg⟩ := List.getElem?_eq_some_iff.mp hi
  rw [List.countP_set hlt, hg]
  cases hh' : p h' with
  | false => simp
  | true =>
    have hpos : 0 < handlers.countP p :=
      List.countP_pos_iff.mpr ⟨h, List.mem_of_getElem? hi, hp hh'⟩
    rw [hp hh', if_pos rfl]
    omega

theorem working_step (hs : s.working ≤ maxStreams) (event : Event) (hr : Roomy maxStreams s event) :
    (s.step maxStreams event).working ≤ maxStreams := by
  cases event with
  | accept =>
    unfold step
    split_ifs with hp
    · have hlt : s.working < maxStreams := hr hp
      rw [working] at hlt ⊢
      rw [List.countP_append]
      exact hlt
    · exact hs
  | overflow => exact hs
  | handler i input =>
    cases hi : s.handlers[i]? with
    | none =>
      simp only [step, hi]
      exact hs
    | some h =>
      simp only [step, hi]
      exact (countP_set_le hi (advanced h s.streams s.ids input).atWork).trans hs

/-- Under the condition the table never has more than `max_streams` entries. -/
theorem client_stream_limit_holds (events : List Event)
    (h : Runs.Along (step maxStreams) (Roomy maxStreams) {} events) :
    Runs.Always (step maxStreams) (fun s => s.streams.length ≤ maxStreams) {} events := by
  have hr : Runs.Always (step maxStreams) (fun s => s.Held ∧ s.working ≤ maxStreams) {} events :=
    Runs.always_invariant
      (fun s event hs hroom => ⟨held_step hs.1 event, working_step hs.2 event hroom⟩)
      ⟨⟨List.nodup_nil, fun _ hid => (by cases hid), fun _ hid => (by cases hid)⟩, Nat.zero_le _⟩ h
  exact Runs.always_mono (fun s hs => hs.1.length_le.trans hs.2) hr

theorem client_stream_limit_holds_one : Runs.Always (step 1) (fun s => s.streams.length ≤ 1) {}
      [.accept, .handler 0 (.handshake true), .handler 0 (.attempt false),
        .handler 0 (.answer true),
        .accept, .handler 0 .finish, .handler 0 .leave, .accept, .handler 1 (.handshake true)] :=
  client_stream_limit_holds _ (by decide)

/-- Two connections are accepted before either has finished its handshake. -/
theorem client_stream_limit_exceeded : ¬ Runs.Always (step 1) (fun s => s.streams.length ≤ 1) {}
      [.accept, .accept, .handler 0 (.handshake true), .handler 0 (.attempt false),
        .handler 1 (.handshake true), .handler 1 (.attempt false)] := by
  decide

end StreamListener
end Csqtt
