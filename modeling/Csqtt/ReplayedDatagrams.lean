import Csqtt.ReflectedDatagrams
import Csqtt.ServerTasks
import Csqtt.ServerUnharmed

/-!
# Copies of datagrams

A copy of a datagram that the server has accepted comes from anywhere, at any later time. If it
carries neither a GETCONF nor a DISCONNECT it harms no session. A copy of a GETCONF from another
address starts a new session with the old identity, which takes over its worker.
-/

namespace Csqtt

namespace World

variable (cfg : ControlConfig)

/-- The operations of the tasks leave the sessions of the engine alone. -/
structure SameHot (e e' : Engine) : Prop where
  sessions : e'.sessions = e.sessions
  byId : e'.byId = e.byId
  nextId : e'.nextId = e.nextId

theorem SameHot.continues {e e' : Engine} (h : SameHot e e') : Engine.Continues e e' :=
  (Engine.Continues.of_keeps (.refl e)).of_sessions h.sessions h.byId h.nextId

variable (w : World)

theorem sameHot_command (command : Command) : SameHot w.engine (w.command command).1.engine := by
  unfold World.command
  split_ifs
  · exact ⟨rfl, rfl, rfl⟩
  · exact ⟨rfl, rfl, rfl⟩

theorem sameHot_exec (t : Task) (io : TaskIo) (op : Op) :
    SameHot w.engine (w.exec cfg t io op).1.engine := by
  obtain heq | ⟨f, -, heq⟩ | ⟨credentials, -, heq⟩ := (effects_exec cfg w t io op).engine
  · rw [heq]
    exact ⟨rfl, rfl, rfl⟩
  · rw [heq]
    exact ⟨rfl, rfl, rfl⟩
  · rw [heq]
    exact ⟨rfl, rfl, rfl⟩

theorem sameHot_recv (currentWall : ℕ) : SameHot w.engine (w.recv currentWall).engine := by
  obtain heq | ⟨event, events, -, heq⟩ := engine_recv w currentWall
  · rw [heq]
    exact ⟨rfl, rfl, rfl⟩
  · rw [heq]
    exact ⟨rfl, rfl, rfl⟩

theorem continues_step (input : Input) : Engine.Continues w.engine (w.step cfg input).engine := by
  cases input with
  | udp endpoint wire io => exact Engine.continues_step cfg.server w.engine (.udp endpoint wire io)
  | tick io => exact Engine.continues_step cfg.server w.engine (.tick io)
  | tun packet => exact Engine.continues_step cfg.server w.engine (.tun packet)
  | drain io => exact Engine.continues_step cfg.server w.engine (.drain io)
  | ioCounters => exact Engine.continues_step cfg.server w.engine .ioCounters
  | restart wallNow => exact Engine.continues_step cfg.server w.engine (.restart wallNow)
  | command io =>
    rw [World.step, World.takeCommand]
    split
    · exact .of_keeps (.refl _)
    · exact Engine.continues_onCommand cfg.server w.engine _ io
  | recv currentWall => exact (sameHot_recv w currentWall).continues
  | task _ io =>
    rw [World.step, World.runTask]
    split
    · exact .of_keeps (.refl _)
    · split
      · exact .of_keeps (.refl _)
      · exact (sameHot_exec cfg w _ io _).continues
  | panel => exact .of_keeps (.refl _)
  | database =>
    rw [World.step]
    split_ifs
    · exact .of_keeps (.refl _)
    · exact .of_keeps (.refl _)
  | streamReceive => exact .of_keeps (.refl _)
  | streamSend => exact (sameHot_command w _).continues
  | streamFinish => exact .of_keeps (.refl _)

theorem run_indexed (credentials : List Credential) (db : Database) (wallNow : ℕ)
    (inputs : List Input) :
    (inputs.foldl (step cfg) (start credentials db wallNow)).engine.Indexed := by
  apply Runs.invariant (I := fun w : World => w.engine.Indexed) (Q := fun _ _ => True)
  · intro w input hw _
    exact (continues_step cfg w input).indexed hw
  · exact Engine.indexed_of_empty rfl rfl
  · exact Runs.along_of_forall fun _ _ => trivial

/-- The session lives, and the highest number it has seen is less than half the numbers beyond
`seq`. -/
def Near (id : ℕ) (seq : UInt16) (w : World) : Prop :=
  ∃ slot s, w.engine.sessions.get slot = some s ∧ s.id = id ∧
    (s.replay.highest - seq).toNat < 32768

/-- The session has its key and its mode, and remembers the number. -/
structure Recalls (id : ℕ) (key : Bytes) (isSrtp : Bool) (seq : UInt16) (w : World) : Prop where
  indexed : w.engine.Indexed
  session : ∀ slot s, w.engine.sessions.get slot = some s → s.id = id →
    s.key = key ∧ s.isSrtp = isSrtp ∧ s.replay.Remembers seq

theorem Recalls.step {id : ℕ} {key : Bytes} {isSrtp : Bool} {seq : UInt16} {w : World}
    (h : w.Recalls id key isSrtp seq) (hn : w.Near id seq) (input : Input) :
    (w.step cfg input).Recalls id key isSrtp seq := by
  have hc := continues_step cfg w input
  refine ⟨hc.indexed h.indexed, fun slot' s' hs' hi' => ?_⟩
  obtain ⟨slot, s, hs, hid, hd⟩ := hn
  obtain ⟨slot₀, s₀, hs₀, hs₀'⟩ | ⟨hne, -⟩ := hc.sessions slot' s' hs'
  · have hi₀ : s₀.id = id := hs₀'.id.symm.trans hi'
    obtain rfl := h.indexed.unique hs hs₀ (hid.trans hi₀.symm)
    cases hs.symm.trans hs₀
    obtain ⟨hk, hm, hr⟩ := h.session slot s hs hid
    refine ⟨hs₀'.key.trans hk, hs₀'.isSrtp.trans hm, ?_⟩
    obtain hsame | ⟨next, ha⟩ := hs₀'.replay
    · rw [hsame]
      exact hr
    · rw [ha]
      exact hr.accept hd next
  · have hb := h.indexed.below slot s hs
    omega

theorem recalls_of_near {id : ℕ} {key : Bytes} {isSrtp : Bool} {seq : UInt16} {w : World}
    (h : w.Recalls id key isSrtp seq) {later : List Input}
    (hn : Runs.Always (step cfg) (Near id seq) w later) :
    (later.foldl (step cfg) w).Recalls id key isSrtp seq ∧
      (later.foldl (step cfg) w).Near id seq := by
  constructor
  · exact Runs.invariant (I := Recalls id key isSrtp seq) (Q := fun w _ => Near id seq w)
      (fun _ input hw hq => hw.step cfg hq input) h (Runs.along_of_always hn)
  · have hl := Runs.always_iff_take.mp hn later.length
    rw [List.take_length] at hl
    exact hl

end World

/-- The session `s` of the next state has accepted a datagram with the number in this step: its
window took it, or the session was created for it. -/
def Engine.Took (e : Engine) (s : HotSession) (seq : UInt16) : Prop :=
  (∃ slot s₀, e.sessions.get slot = some s₀ ∧ s₀.id = s.id ∧
    s₀.replay.accept seq = (s.replay, true)) ∨
  (e.nextId ≤ s.id ∧ ReplayState.accept {} seq = (s.replay, true))

theorem Engine.Took.remembers {e : Engine} {s : HotSession} {seq : UInt16} (h : e.Took s seq) :
    s.replay.Remembers seq := by
  obtain ⟨_, s₀, _, _, ha⟩ | ⟨_, ha⟩ := h
  · have hr := ReplayState.remembers_of_accepted (congrArg Prod.snd ha)
    rw [ha] at hr
    exact hr
  · have hr := ReplayState.remembers_of_accepted (congrArg Prod.snd ha)
    rw [ha] at hr
    exact hr

namespace Engine

variable (cfg : ServerConfig) {s : HotSession} {packet : ServerWire.DecodedPacket} {e : Engine}
  {slot : ℕ}

/-- A session takes a datagram that it can decode, that is no GETCONF and whose number its window
accepts. -/
theorem took_onUdp {endpoint : EndpointKey} (hslot : e.slotFor endpoint = some slot)
    (hs : e.sessions.get slot = some s) {wire buffer : Bytes}
    (hu : ServerWire.unwrapLegacyInPlace (cfg.prims.keyed s.key) wire (some s.isSrtp) =
      (buffer, .ok packet)) (ha : (s.replay.accept packet.seq).2 = true)
    (hp : isGetconf (Buffer.slice buffer packet.start packet.stop) = false) (io : UdpIo) :
    ∃ s', (e.onUdp cfg endpoint wire io).sessions.get slot = some s' ∧ e.Took s' packet.seq := by
  obtain ⟨s', hs', hid, hr⟩ := get_receive cfg hs ha endpoint.localIp
    (Buffer.slice buffer packet.start packet.stop) io
  refine ⟨s', ?_, .inl ⟨slot, s, hs, hid.symm, ?_⟩⟩
  · rw [onUdp, hslot]
    dsimp only
    rw [handleExisting, hs]
    dsimp only
    rw [hu]
    dsimp only
    rw [if_neg (by simp [hp])]
    exact hs'
  · rw [hr, ← ha]

/-- The datagram changes nothing that concerns sessions, and nobody hears of it. -/
structure Ignores (e e' : Engine) : Prop where
  unharmed : Unharmed e e'
  events : e'.events = e.events
  written : e'.written = e.written

theorem unharmed_touchEpoch (e : Engine) (deviceId : Text) :
    Unharmed e (e.touchEpoch deviceId) := by
  unfold touchEpoch
  split
  · exact .refl e
  · exact .of_eq rfl rfl rfl

theorem unharmed_of_refused (hs : e.sessions.get slot = some s) {seq : UInt16}
    (hr : (s.replay.accept seq).2 = false) (localIp : Option IpAddr) (plain : Bytes) (io : UdpIo) :
    Unharmed e (e.receive cfg slot s localIp seq plain io) := by
  unfold receive
  split
  · rename_i replay _
    exact .setSession hs { s with replay } ⟨rfl, rfl, rfl, rfl, rfl, rfl, rfl, rfl⟩ rfl
  · rename_i replay heq
    rw [heq] at hr
    cases hr

theorem unharmed_handleGetconf (hs : e.sessions.get slot = some s)
    (hr : (s.replay.accept packet.seq).2 = false) {incoming : Identity}
    (hk : getconfReconnectActionHot (e.epochs.lookup incoming.deviceId) s.identity incoming ≠
      .replace) (localIp : Option IpAddr) (plain : Bytes) (io : UdpIo) :
    Unharmed e (e.handleGetconf cfg slot s localIp packet incoming plain io) := by
  unfold handleGetconf
  split
  · exact .refl e
  · rename_i hreplace
    exact absurd hreplace hk
  · exact unharmed_of_refused cfg hs hr localIp plain io

theorem ignores_of_refused {endpoint : EndpointKey} (hslot : e.slotFor endpoint = some slot)
    (hs : e.sessions.get slot = some s) {wire buffer : Bytes}
    (hu : ServerWire.unwrapLegacyInPlace (cfg.prims.keyed s.key) wire (some s.isSrtp) =
      (buffer, .ok packet)) (hr : (s.replay.accept packet.seq).2 = false)
    (hk : ¬ e.Replaces s (Buffer.slice buffer packet.start packet.stop)) (io : UdpIo) :
    Ignores e (e.onUdp cfg endpoint wire io) := by
  have hn := (handleExisting_of_unwrapped cfg hs hu rfl endpoint.localIp io).1 hr hk
  have hudp : e.onUdp cfg endpoint wire io =
      e.handleExisting cfg slot endpoint.localIp wire io := by
    rw [onUdp, hslot]
  rw [hudp]
  refine ⟨?_, hn.events, hn.written⟩
  rw [handleExisting, hs]
  dsimp only
  rw [hu]
  dsimp only
  split_ifs with hg
  · cases hp : parseGetconfEpoch (Buffer.slice buffer packet.start packet.stop) with
    | none => exact .refl e
    | some incoming =>
      apply (unharmed_touchEpoch e incoming.deviceId).trans
      apply unharmed_handleGetconf cfg
        ((sameTables_touchEpoch e incoming.deviceId).sessions ▸ hs) hr
      rw [action_touchEpoch]
      exact fun hreplace => hk ⟨hg, incoming, hp, hreplace⟩
  · exact unharmed_of_refused cfg hs hr endpoint.localIp _ io

end Engine

namespace World

variable (cfg : ControlConfig)

def Reachable (w : World) : Prop :=
  ∃ credentials db wallNow, ∃ inputs : List Input,
    w = inputs.foldl (step cfg) (start credentials db wallNow)

/-- The session has taken the datagram in this step, and in the later run it lives and stays near
its number. -/
structure Taken (w : World) (endpoint : EndpointKey) (wire : Bytes) (io : UdpIo)
    (later : List Input)
    (s : HotSession) (buffer : Bytes) (packet : ServerWire.DecodedPacket) : Prop where
  live : ∃ slot, (w.step cfg (.udp endpoint wire io)).engine.sessions.get slot = some s
  unwrapped : ServerWire.unwrapLegacyInPlace (cfg.server.prims.keyed s.key) wire (some s.isSrtp) =
    (buffer, .ok packet)
  took : w.engine.Took s packet.seq
  near : Runs.Always (step cfg) (Near s.id packet.seq) (w.step cfg (.udp endpoint wire io)) later

theorem Taken.recalls {w : World} {endpoint : EndpointKey} {wire : Bytes} {io : UdpIo}
    {later : List Input} {s : HotSession} {buffer : Bytes} {packet : ServerWire.DecodedPacket}
    (h : Taken cfg w endpoint wire io later s buffer packet) (hw : w.engine.Indexed) :
    (w.step cfg (.udp endpoint wire io)).Recalls s.id s.key s.isSrtp packet.seq := by
  have hin := (continues_step cfg w (.udp endpoint wire io)).indexed hw
  refine ⟨hin, fun i t ht htid => ?_⟩
  obtain ⟨slot, hs⟩ := h.live
  obtain rfl := hin.unique hs ht htid.symm
  cases hs.symm.trans ht
  exact ⟨rfl, rfl, h.took.remembers⟩

/-- Copies of datagrams. What carries neither a GETCONF nor a DISCONNECT harms no session, and
neither does anything that is done for it later. What comes to the session that took it is ignored
while the session's window knows its number, unless it is a GETCONF that the engine replaces the
session for. -/
theorem copies_harmless (w : World) (hw : w.Reachable cfg) (wire : Bytes) :
    (∀ endpoint io, w.engine.CarriesIdle cfg.server wire → w.engine.TunnelAt endpoint →
      Serves w (w.step cfg (.udp endpoint wire io))) ∧
    (∀ input, w.Idles input → Serves w (w.step cfg input)) ∧
    ∀ endpoint io later s buffer packet, Taken cfg w endpoint wire io later s buffer packet →
      ∀ w', w' = later.foldl (step cfg) (w.step cfg (.udp endpoint wire io)) →
      ∀ endpoint' io' slot s', w'.engine.slotFor endpoint' = some slot →
        w'.engine.sessions.get slot = some s' → s'.id = s.id →
        ¬ w'.engine.Replaces s' (Buffer.slice buffer packet.start packet.stop) →
        Engine.Ignores w'.engine (w'.step cfg (.udp endpoint' wire io')).engine := by
  refine ⟨fun endpoint io hi htunnel => ?_, fun input hin => serves_step cfg hin, ?_⟩
  · exact Serves.withEngine (Engine.serves_onUdp cfg.server hi htunnel io)
  · intro endpoint io later s buffer packet htake w' hw' endpoint' io' slot s' hs hs' hid hk
    obtain ⟨credentials, db, wallNow, inputs, rfl⟩ := hw
    have hr := htake.recalls cfg (run_indexed cfg credentials db wallNow inputs)
    obtain ⟨hl, ⟨i, t, ht, htid, hd⟩⟩ := recalls_of_near cfg hr htake.near
    rw [← hw'] at hl ht
    obtain rfl := hl.indexed.unique hs' ht (hid.trans htid.symm)
    cases hs'.symm.trans ht
    obtain ⟨hkey, hm, hreg⟩ := hl.session slot s' hs' hid
    have hu := htake.unwrapped
    rw [← hkey, ← hm] at hu
    exact Engine.ignores_of_refused cfg.server hs hs' hu (hreg.refused hd)
      hk io'

end World

namespace Recorded

open CrossLanguage

def disconnectHeader : RtpHeader where
  marks := 0x6f
  seq := 0x9001
  timestamp := 0x43e8f7b0
  ssrc := 0x709a0949
  absSendTime := [0x11, 0xeb, 0xa0]
  transportSeq := 0x2bb7
  absSendTime_length := rfl

def disconnectPacket : Packet where
  nonce := [0x70, 0x9a, 0x09, 0x49, 0x90, 0x01, 0x00, 0x00, 0x43, 0xe8, 0xf7, 0xb0]
  stream := [0x7d, 0xae, 0x6c, 0x07, 0xb0, 0x42, 0x55, 0x1f, 0x04, 0xcb, 0xdd, 0x1a, 0xd1,
    0x0a, 0x86, 0x6f, 0xa5, 0x23]
  tag := [0xba, 0x40, 0x27, 0xb4, 0xe1, 0x2f, 0x9c, 0x08, 0xa4, 0xd6, 0x71, 0x59, 0xe7, 0xcc, 0x96,
    0xa2]

def control : ControlConfig where
  server := ⟨primitives [getconfPacket, disconnectPacket, serverPacket] getconfCode, (10, 66, 67)⟩
  deriveWrapKey password := if password = "cross-language-password".toList then key else []

def disconnectDatagram : Bytes :=
  encode (control.server.prims.keyed key) false disconnectHeader
    (asciiBytes "DISCONNECT:phone|s") []

def dataHeader : RtpHeader :=
  { getconfHeader with
    seq := 0x9e52
    timestamp := 0x43e8f72f
    ssrc := 0x8b6fe47d
    transportSeq := 0xbeef }

def dataDatagram : Bytes := encode (control.server.prims.keyed key) false dataHeader payload []

def database : Database := { mainPassword := "cross-language-password".toList }

def taskIo : TaskIo := { now := 0, unixMs := 0, busy := false, dns := "1.1.1.1".toList }

def commandIo : Engine.CommandIo := ⟨fun _ => { sendIo with room := false }, true⟩

def turns (n : ℕ) : List World.Input :=
  (List.replicate n [.recv 0, .task 0 taskIo, .command commandIo]).flatten

def turnsOfSecond (n : ℕ) : List World.Input :=
  (List.replicate n [.task 1 taskIo, .command commandIo]).flatten

def run (w : World) (inputs : List World.Input) : World := inputs.foldl (World.step control) w

def other : EndpointKey := ⟨⟨[198, 51, 100, 9], 40001⟩, none⟩

def established : World :=
  run (.start credentials database 0) (.udp endpoint getconfDatagram udpIo :: turns 40)

def redirected : World := run established (.udp other getconfDatagram udpIo :: turns 40)

def reconnected : World :=
  run (run established (.udp endpoint disconnectDatagram udpIo :: turns 40))
    (.udp endpoint getconfDatagram udpIo :: turns 40)

def disconnected : World := run reconnected (.udp endpoint disconnectDatagram udpIo :: turns 40)

/-- The client has sent data and gone to another address, where it has no tunnel yet. -/
def moved : World :=
  run established [.udp endpoint dataDatagram udpIo, .udp other getconfDatagram udpIo]

/-- A copy of the data has come there, and its task is faster than that of the GETCONF. -/
def dropped : World :=
  run moved (.udp other dataDatagram udpIo :: turns 6 ++ .recv 0 :: turnsOfSecond 20 ++ turns 20)

def session₁ : HotSession := (established.engine.sessions.get 0).get (by decide +kernel)

theorem get_session₁ : established.engine.sessions.get 0 = some session₁ := (Option.some_get _).symm

def unwrapped : Bytes × WireResult ServerWire.DecodedPacket :=
  ServerWire.unwrapLegacyInPlace (control.server.prims.keyed session₁.key) dataDatagram
    (some session₁.isSrtp)

def unwrappedPacket : ServerWire.DecodedPacket := unwrapped.2.toOption.get (by decide +kernel)

def taken : World := established.step control (.udp endpoint dataDatagram udpIo)

theorem established_facts : established.engine.slotFor endpoint = some 0 ∧
    ServerWire.unwrapLegacyInPlace (control.server.prims.keyed session₁.key) dataDatagram
      (some session₁.isSrtp) = (unwrapped.1, .ok unwrappedPacket) ∧
    (session₁.replay.accept unwrappedPacket.seq).2 = true ∧
    isGetconf (Buffer.slice unwrapped.1 unwrappedPacket.start unwrappedPacket.stop) = false ∧
    (taken.engine.sessions.get 0).map (fun s => (s.key, s.isSrtp, s.replay.highest)) =
      some (session₁.key, session₁.isSrtp, unwrappedPacket.seq) ∧
    taken.engine.slotFor endpoint = some 0 ∧
    (∀ key ∈ established.engine.keys, ∀ mode ∈ [none, some false, some true],
      (Engine.opened control.server key dataDatagram mode).all isIdlePayload = true) ∧
    session₁.tunnelIp.isSome ∧ session₁.registrationId.isSome := by
  decide +kernel

def peers (w : World) : List (ℕ × SocketAddr) :=
  w.engine.sessions.values.map fun s => (s.id, s.peer)

def routed (w : World) : List ℕ := (w.engine.routes 2).map (·.sessionId)

def isSettled (w : World) : Bool := w.engine.events.isEmpty && w.tasks.isEmpty && w.commands.isEmpty

end Recorded

/-- Copies that do harm: a GETCONF from another address takes the route over and the old session is
removed, a DISCONNECT removes the session of a client that has come back, and data removes a session
that has no tunnel yet. -/
theorem replayed_datagrams_harm :
    (Recorded.peers Recorded.established = [(1, Recorded.endpoint.peer)] ∧
      Recorded.routed Recorded.established = [1] ∧
      Recorded.peers Recorded.redirected = [(2, Recorded.other.peer)] ∧
      Recorded.routed Recorded.redirected = [2] ∧ Recorded.isSettled Recorded.redirected = true) ∧
    (Recorded.peers Recorded.reconnected = [(2, Recorded.endpoint.peer)] ∧
      Recorded.routed Recorded.reconnected = [2] ∧ Recorded.peers Recorded.disconnected = [] ∧
      Recorded.routed Recorded.disconnected = [] ∧
      Recorded.isSettled Recorded.disconnected = true) ∧
    Recorded.moved.engine.written.map (·.1) = [1] ∧ Recorded.peers Recorded.moved =
      [(1, Recorded.endpoint.peer), (2, Recorded.other.peer)] ∧
    Recorded.peers Recorded.dropped = [(1, Recorded.endpoint.peer)] ∧
    Recorded.isSettled Recorded.dropped = true := by
  decide +kernel

/-- The theorem at the copy of data in the session that took it. -/
theorem copies_harmless_data : World.Serves Recorded.established Recorded.taken ∧
      Engine.Ignores Recorded.taken.engine (Recorded.taken.step Recorded.control
          (.udp Recorded.endpoint Recorded.dataDatagram Recorded.udpIo)).engine := by
  obtain ⟨hserver, -, hignore⟩ := World.copies_harmless Recorded.control Recorded.established
    ⟨Recorded.credentials, Recorded.database, 0, _, rfl⟩ Recorded.dataDatagram
  obtain ⟨hslot, hunwrap, hacc, hplain, hfields, hslot', hidle, htunnel⟩ :=
    Recorded.established_facts
  obtain ⟨s, hs, htook⟩ := Engine.took_onUdp Recorded.control.server hslot Recorded.get_session₁
    hunwrap hacc hplain Recorded.udpIo
  have hget : Recorded.taken.engine.sessions.get 0 = some s := hs
  rw [hget, Option.map_some, Option.some.injEq, Prod.mk.injEq, Prod.mk.injEq] at hfields
  obtain ⟨hkey, hmode, hhigh⟩ := hfields
  constructor
  · refine hserver Recorded.endpoint Recorded.udpIo (fun key hkey mode payload hopen => ?_)
      fun slot s hs hget => ?_
    · have hall := hidle key hkey mode (by cases mode <;> simp)
      rw [hopen] at hall
      exact hall
    · rw [hslot] at hs
      rw [← Option.some.inj hs, Recorded.get_session₁] at hget
      rw [← Option.some.inj hget]
      exact .inl htunnel
  · apply hignore Recorded.endpoint Recorded.udpIo [] s Recorded.unwrapped.1
      Recorded.unwrappedPacket ⟨⟨0, hget⟩, by rw [hkey, hmode, hunwrap], htook, ?_⟩ _ rfl
      Recorded.endpoint Recorded.udpIo 0 s hslot' hget rfl
    · intro hreplace
      rw [Engine.Replaces, hplain] at hreplace
      cases hreplace.1
    · refine ⟨0, s, hget, rfl, ?_⟩
      rw [hhigh, UInt16.sub_self]
      decide

end Csqtt
