import Mathlib.Data.List.Induction
import Csqtt.ServerTable

/-!
# Repeated OPEN frames

Which runs of the stream table start at most one task for each stream. An OPEN that finds its entry
is ignored, but one that comes when the entry is gone starts a second task, and the end of the first
task then takes the entry of the second one out.
-/

namespace Csqtt

def isClientDuplicableFrame (packet : Bytes) : Bool :=
  magic.isPrefixOf packet && [1, 4, 5].contains (packet.getD 6 0)

/-- The second list is the first one with copies of frames after their originals; `seen` are the
frames before. -/
inductive Copies : List Bytes → List Bytes → List Bytes → Prop
  | nil (seen : List Bytes) : Copies seen [] []
  | frame (seen : List Bytes) (f : Bytes) {sent received : List Bytes} :
      Copies (f :: seen) sent received → Copies seen (f :: sent) (f :: received)
  | copy {seen : List Bytes} (f : Bytes) {sent received : List Bytes} :
      f ∈ seen → isClientDuplicableFrame f = true → Copies seen sent received →
        Copies seen sent (f :: received)

namespace ProxyTable

def Action.frameOf (session : ℕ) : Action → Option Bytes
  | .frame s payload _ => if s = session then some payload else none
  | _ => none

def OneTaskPerStream (s : ProxyTable) : Prop := s.started.Nodup

/-- If a task ends here, only entries made for it leave the table. -/
def RemovesOwnEntry (s : ProxyTable) (a : Action) : Prop :=
  match a with
  | .finish task _ _ _ => ∀ e ∈ s.streams, e ∉ (s.step a).streams → e.2 = task
  | _ => True

/-- The task of the stream gets nothing more: its queue is full, or it has ended. -/
def Stuck (s : ProxyTable) (key : ℕ × ℕ) : Prop :=
  ∃ task, s.get key = some task ∧
    ∀ t, s.tasks[task]? = some t → t.running = true → streamCapacity ≤ t.input.length

/-- A CLOSE, or data or a request to send again that the queue does not take. -/
def Clears (s : ProxyTable) (key : ℕ × ℕ) (f : Frame) : Prop :=
  f.kind = kindClose ∨ s.Stuck key ∧ (f.kind = kindData ∧ f.payload.length ≤ maxData + 8 ∨
    f.kind = kindResend ∧ f.payload.length = 8)

/-- What takes the entry of a stream out: such a frame, the end of a task of the stream, and the
close of its session. -/
def TakesOut (s : ProxyTable) (key : ℕ × ℕ) : Action → Prop
  | .frame session payload _ =>
    ∃ f, parseFrame payload = some f ∧ (session, f.streamId) = key ∧ s.Clears key f
  | .finish task _ _ _ => ∃ t, s.tasks[task]? = some t ∧ t.running = true ∧ t.key = key
  | .closeSession session => session = key.1
  | .receive _ => False

/-- The action is an OPEN of the stream, and the table does not refuse it. -/
def Opens (s : ProxyTable) (key : ℕ × ℕ) : Action → Prop
  | .frame session payload _ => ∃ f, parseFrame payload = some f ∧ (session, f.streamId) = key ∧
      f.kind = kindOpen ∧ s.refuses session f = false
  | _ => False

/-- An OPEN finds its entry, or is refused, or is the first for which a task is started. -/
def OpensOnce (s : ProxyTable) (a : Action) : Prop :=
  ∀ key, s.Opens key a → s.containsKey key = true ∨ key ∉ s.started

/-- No stream is opened after its entry was taken out. -/
def NoLateOpen (actions : List Action) : Prop :=
  ∀ key before a between b after, actions = before ++ a :: between ++ b :: after →
    (before.foldl step {}).containsKey key = true → (before.foldl step {}).TakesOut key a →
    ¬ ((before ++ a :: between).foldl step {}).Opens key b

def EntriesNameTasks (s : ProxyTable) : Prop := ∀ e ∈ s.streams, s.started[e.2]? = some e.1

variable {s s' : ProxyTable}

theorem EntriesNameTasks.kept (h : EntriesNameTasks s) (hk : Kept s s') : EntriesNameTasks s' := by
  intro e he
  rw [hk.started]
  exact h e (hk.streams he)

theorem started_spawn (s : ProxyTable) (key : ℕ × ℕ) (target : TargetHost × ℕ) :
    (s.spawn key target).started = s.started ++ [key] := by
  simp [started, spawn]

theorem EntriesNameTasks.spawn (h : EntriesNameTasks s) (key : ℕ × ℕ)
    (target : TargetHost × ℕ) : EntriesNameTasks (s.spawn key target) := by
  have hl : s.started.length = s.tasks.length := by simp [started]
  intro e he
  rw [started_spawn]
  obtain ho | hn := List.mem_append.mp he
  · have hlt := (List.getElem?_eq_some_iff.mp (h e ho)).1
    rw [List.getElem?_append_left hlt]
    exact h e ho
  · rw [List.mem_singleton.mp hn, ← hl, List.getElem?_concat_length]

theorem kept_or_spawn (s : ProxyTable) (a : Action) : (OpensOnce s a ∧ Kept s (s.step a)) ∨
      ∃ key target, (OpensOnce s a ↔ key ∉ s.started) ∧ s.step a = s.spawn key target := by
  cases a with
  | receive task => exact .inl ⟨fun _ h => h.elim, kept_lapse.receive s task⟩
  | finish task failed errorQueued closeQueued =>
    exact .inl ⟨fun _ h => h.elim, kept_lapse.finish s task failed errorQueued closeQueued⟩
  | closeSession => exact .inl ⟨fun _ h => h.elim, kept_lapse.closeSession s _⟩
  | frame session payload queued =>
    cases hp : parseFrame payload with
    | none =>
      simp only [OpensOnce, Opens, step, handleFrame, hp]
      exact .inl ⟨by simp, Kept.refl s⟩
    | some f =>
      simp only [OpensOnce, Opens, step, handleFrame, hp]
      obtain ⟨hw, hk⟩ | ⟨⟨ho, hkey, hr⟩, target, hs⟩ := s.handleParsed_cases session f queued
      · refine .inl ⟨?_, hk⟩
        rintro key ⟨f, ⟨⟩, rfl, ho, hr⟩
        exact .inl ((hw ho).resolve_right (by rw [hr]; exact Bool.false_ne_true))
      · refine .inr ⟨_, target, ⟨fun h => ?_, ?_⟩, hs⟩
        · exact (h _ ⟨f, rfl, rfl, ho, hr⟩).resolve_left (by rw [hkey]; exact Bool.false_ne_true)
        · rintro h key ⟨f, ⟨⟩, rfl, -⟩
          exact .inr h

theorem entriesNameTasks_step (h : EntriesNameTasks s) (a : Action) :
    EntriesNameTasks (s.step a) := by
  obtain ⟨_, hk⟩ | ⟨key, target, _, hs⟩ := s.kept_or_spawn a
  · exact h.kept hk
  · rw [hs]
    exact h.spawn key target

theorem oneTaskPerStream_step (h : OneTaskPerStream s) (a : Action) :
    OneTaskPerStream (s.step a) ↔ OpensOnce s a := by
  obtain ⟨ho, hk⟩ | ⟨key, target, ho, hs⟩ := s.kept_or_spawn a
  · rw [OneTaskPerStream, hk.started]
    exact iff_of_true h ho
  · rw [OneTaskPerStream, hs, started_spawn, ho, List.nodup_append_comm]
    exact List.nodup_cons.trans (and_iff_left h)

theorem removesOwnEntry_of_oneTask (ho : OneTaskPerStream s)
    (hn : EntriesNameTasks s) (a : Action) : RemovesOwnEntry s a := by
  cases a with
  | frame | receive | closeSession => trivial
  | finish task failed errorQueued closeQueued =>
    intro e he hg
    rw [step] at hg
    obtain hs | ⟨key, ht, _, hstream⟩ :=
      s.finish_cases task failed errorQueued closeQueued
    · rw [hs] at hg
      exact absurd he hg
    · have hk : e.1 = key := by
        rw [hstream] at hg
        simpa [he] using hg
      obtain ⟨hlt, _⟩ := List.getElem?_eq_some_iff.mp (hn e he)
      apply (List.getElem?_inj hlt ho).mp
      rw [hn e he, hk, ht]

/-! ## Entries that leave the table -/

variable {key : ℕ × ℕ}

theorem containsKey_eq_true : s.containsKey key = true ↔ ∃ e ∈ s.streams, e.1 = key := by
  simp [containsKey]

theorem containsKey_congr (h : s'.streams = s.streams) :
    s'.containsKey key = s.containsKey key := by
  rw [containsKey, containsKey, h]

theorem containsKey_spawn (s : ProxyTable) (opened : ℕ × ℕ) (target : TargetHost × ℕ) :
    (s.spawn opened target).containsKey key = (s.containsKey key || opened = key) := by
  simp [containsKey, spawn]

theorem Kept.containsKey (h : Kept s s') (hk : s.containsKey key = false) :
    s'.containsKey key = false := by
  rw [ProxyTable.containsKey, List.any_eq_false] at hk ⊢
  exact fun e he => hk e (h.streams he)

theorem containsKey_remove (s : ProxyTable) (removed : ℕ × ℕ) :
    (s.remove removed).containsKey key = true ↔ s.containsKey key = true ∧ removed ≠ key := by
  simp only [containsKey_eq_true, remove, List.mem_filter]
  grind

theorem get_eq_none : s.get key = none ↔ s.containsKey key = false := by
  rw [get, List.lookup_eq_none_iff, containsKey, List.any_eq_false]
  grind

theorem streams_trySend {sent : ProxyTable} {task : ℕ} {item : StreamInput}
    (h : s.trySend task item = some sent) : sent.streams = s.streams := by
  unfold trySend at h
  split at h
  · cases h
  · split_ifs at h
    rw [← Option.some.inj h]

theorem trySend_eq_none {task : ℕ} {item : StreamInput} : s.trySend task item = none ↔
    ∀ t, s.tasks[task]? = some t → t.running = true → streamCapacity ≤ t.input.length := by
  unfold trySend
  split <;> grind

theorem containsKey_offer (s : ProxyTable) (other : ℕ × ℕ) (item : StreamInput) :
    (s.offer other item).1.containsKey key = true ↔
      s.containsKey key = true ∧ ¬ (other = key ∧ s.Stuck key) := by
  rw [offer]
  cases hg : s.get other with
  | none =>
    refine (and_iff_left ?_).symm
    rintro ⟨rfl, task, hs, -⟩
    rw [hg] at hs
    cases hs
  | some task =>
    dsimp only
    cases hs : s.trySend task item with
    | none =>
      refine (s.containsKey_remove other).trans (and_congr_right fun _ => not_congr ?_)
      exact ⟨fun h => ⟨h, h ▸ ⟨task, hg, trySend_eq_none.mp hs⟩⟩, fun h => h.1⟩
    | some sent =>
      refine (Bool.coe_iff_coe.mpr (containsKey_congr (streams_trySend hs))).trans
        (and_iff_left ?_).symm
      rintro ⟨rfl, task', hg', hfull⟩
      rw [hg] at hg'
      cases hg'
      rw [trySend_eq_none.mpr hfull] at hs
      cases hs

theorem containsKey_sendFrame (s : ProxyTable) (session : ℕ) (frame : Frame) (queued : Bool) :
    (s.sendFrame session frame queued).1.containsKey key = s.containsKey key := by
  cases queued <;> rfl

theorem containsKey_removeAndClose (s : ProxyTable) (removed : ℕ × ℕ) :
    (s.removeAndClose removed).containsKey key = true ↔
      s.containsKey key = true ∧ removed ≠ key := by
  rw [removeAndClose]
  cases hg : s.get removed with
  | none =>
    have hn := get_eq_none.mp hg
    grind
  | some task =>
    dsimp only
    cases hs : (s.remove removed).trySend task .close with
    | none => exact s.containsKey_remove removed
    | some sent =>
      rw [Option.getD_some, containsKey_congr (streams_trySend hs)]
      exact s.containsKey_remove removed

theorem containsKey_closeSession (s : ProxyTable) (session : ℕ) :
    (s.closeSession session).containsKey key = true ↔
      s.containsKey key = true ∧ session ≠ key.1 := by
  have hfold : ∀ (keys : List (ℕ × ℕ)) (s : ProxyTable),
      (keys.foldl removeAndClose s).containsKey key = true ↔
        s.containsKey key = true ∧ key ∉ keys := by
    intro keys
    induction keys with
    | nil => simp
    | cons _ _ ih =>
      intro s
      rw [List.foldl_cons, ih, containsKey_removeAndClose, List.mem_cons, not_or, and_assoc,
        ne_comm]
  rw [closeSession, hfold]
  refine and_congr_right fun h => not_congr ?_
  obtain ⟨e, he, rfl⟩ := containsKey_eq_true.mp h
  grind

theorem containsKey_handleOpen (h : s.containsKey key = true) (session : ℕ) (f : Frame)
    (queued : Bool) : (s.handleOpen session f queued).1.containsKey key = true := by
  have hsent := fun frame => (containsKey_sendFrame s session frame queued).trans h
  unfold handleOpen
  split_ifs
  · exact h
  · exact hsent _
  · split
    · exact hsent _
    · obtain ⟨e, he, hk⟩ := containsKey_eq_true.mp h
      exact containsKey_eq_true.mpr ⟨e, List.mem_append_left _ he, hk⟩

theorem containsKey_handleData (s : ProxyTable) (session : ℕ) (f : Frame) (queued : Bool) :
    (s.handleData session f queued).1.containsKey key = true ↔ s.containsKey key = true ∧
      ¬ ((session, f.streamId) = key ∧ s.Stuck key ∧ f.payload.length ≤ maxData + 8) := by
  have hoffer : _ ↔ s.containsKey key = true ∧ _ :=
    s.containsKey_offer (session, f.streamId) (.data f.payload)
  unfold handleData enqueueData
  split_ifs with hlong
  · simp [hlong]
  · have hle : f.payload.length ≤ maxData + 8 := Nat.le_of_not_lt hlong
    split
    · rename_i heq
      rw [heq] at hoffer
      simpa [hle] using hoffer
    · rename_i heq
      rw [heq] at hoffer
      rw [containsKey_sendFrame]
      simpa [hle] using hoffer

theorem containsKey_handleParsed (h : s.containsKey key = true) (session : ℕ) (f : Frame)
    (queued : Bool) : (s.handleParsed session f queued).1.containsKey key = true ↔
      ¬ ((session, f.streamId) = key ∧ s.Clears key f) := by
  unfold handleParsed Clears
  split_ifs with hopen hdata hclose hresend
  · simp [containsKey_handleOpen h, hopen, kindOpen, kindClose, kindData, kindResend]
  · simp [containsKey_handleData, h, hdata, kindClose, kindData, kindResend]
  · simp [containsKey_removeAndClose, h, hclose]
  · rw [handleResend]
    split_ifs with hlen
    · simp [containsKey_offer, h, hresend, hlen, kindClose, kindData, kindResend]
    · simp [h, hresend, hlen, kindClose, kindData, kindResend]
  · simp [h, hdata, hclose, hresend]

/-- Nothing else takes an entry out. -/
theorem takesOut_iff (h : s.containsKey key = true) (a : Action) :
    s.TakesOut key a ↔ (s.step a).containsKey key = false := by
  rw [← Bool.not_eq_true, iff_not_comm]
  cases a with
  | receive task =>
    rw [step, receive, TakesOut]
    split
    · simp [h]
    · split_ifs <;> exact iff_of_true h id
  | finish task failed errorQueued closeQueued =>
    rw [step, finish, TakesOut]
    cases ht : s.tasks[task]? with
    | none => simp [h]
    | some t =>
      dsimp only
      split_ifs with hrun
      · refine (s.containsKey_remove t.key).trans ?_
        simp [h, hrun]
      · simp [h, hrun]
  | closeSession session =>
    rw [step, containsKey_closeSession, TakesOut]
    simp [h]
  | frame session payload queued =>
    rw [step, handleFrame, TakesOut]
    cases hp : parseFrame payload with
    | none => simp [h]
    | some f =>
      rw [containsKey_handleParsed h session f queued]
      simp

/-! ## Streams that are opened again -/

/-- A task was started for the stream, and there is no entry. -/
def Gone (key : ℕ × ℕ) (s : ProxyTable) : Prop := key ∈ s.started ∧ s.containsKey key = false

theorem gone_step (h : Gone key s) {a : Action} (ho : OpensOnce s a) : Gone key (s.step a) := by
  obtain ⟨-, hk⟩ | ⟨opened, target, hfirst, hs⟩ := s.kept_or_spawn a
  · exact ⟨hk.started ▸ h.1, hk.containsKey h.2⟩
  · have hne : opened ≠ key := fun heq => hfirst.mp ho (heq ▸ h.1)
    rw [hs]
    refine ⟨started_spawn s opened target ▸ List.mem_append_left _ h.1, ?_⟩
    rw [containsKey_spawn, h.2, decide_eq_false hne]
    rfl

theorem gone_of_takesOut (hn : EntriesNameTasks s) (hk : s.containsKey key = true) {a : Action}
    (ht : s.TakesOut key a) : Gone key (s.step a) := by
  refine ⟨?_, (takesOut_iff hk a).mp ht⟩
  obtain ⟨e, he, rfl⟩ := containsKey_eq_true.mp hk
  have hm := List.mem_of_getElem? (hn e he)
  obtain ⟨-, hkept⟩ | ⟨opened, target, -, hs⟩ := s.kept_or_spawn a
  · rwa [hkept.started]
  · rw [hs, started_spawn]
    exact List.mem_append_left _ hm

theorem takenOut_of_gone (actions : List Action) (h : Gone key (actions.foldl step {})) :
    ∃ before a between, actions = before ++ a :: between ∧
      (before.foldl step {}).containsKey key = true ∧ (before.foldl step {}).TakesOut key a := by
  induction actions using List.reverseRecOn with
  | nil => cases h.1
  | append_singleton actions a ih =>
    rw [List.foldl_append, List.foldl_cons, List.foldl_nil] at h
    by_cases hk : (actions.foldl step {}).containsKey key = true
    · exact ⟨actions, a, [], rfl, hk, (takesOut_iff hk a).mpr h.2⟩
    · -- the entry went before, since this action starts no task for the stream
      have hm : key ∈ (actions.foldl step {}).started := by
        obtain ⟨-, hkept⟩ | ⟨opened, target, -, hs⟩ := (actions.foldl step {}).kept_or_spawn a
        · exact hkept.started ▸ h.1
        · obtain ⟨hin, hout⟩ := h
          rw [hs, started_spawn, List.mem_append, List.mem_singleton] at hin
          rw [hs, containsKey_spawn, Bool.or_eq_false_iff, decide_eq_false_iff_not] at hout
          exact hin.resolve_right fun heq => hout.2 heq.symm
      obtain ⟨before, b, between, rfl, hb⟩ := ih ⟨hm, Bool.eq_false_iff.mpr hk⟩
      exact ⟨before, b, between ++ [a], by simp, hb⟩

theorem opensOnce_iff_noLateOpen (actions : List Action) :
    Runs.Along step OpensOnce {} actions ↔ NoLateOpen actions := by
  constructor
  · rintro h key before a between b after rfl hk ht hb
    obtain ⟨hbefore, hopens, -⟩ := Runs.along_append.mp h
    obtain ⟨hfirst, -, hbetween⟩ := Runs.along_append.mp hbefore
    have hn : EntriesNameTasks (before.foldl step {}) :=
      Runs.invariant (fun _ a hs _ => entriesNameTasks_step hs a) (fun _ he => nomatch he) hfirst
    have hgone : Gone key ((before ++ a :: between).foldl step {}) := by
      rw [List.foldl_append, List.foldl_cons]
      exact Runs.invariant (fun _ _ hs ho => gone_step hs ho) (gone_of_takesOut hn hk ht) hbetween
    obtain hin | hout := hopens key hb
    · rw [hgone.2] at hin
      cases hin
    · exact hout hgone.1
  · intro h
    refine Runs.along_iff_append.mpr fun before b after heq key hb => ?_
    by_contra! hn
    obtain ⟨done, a, between, rfl, hk, ht⟩ :=
      takenOut_of_gone before ⟨hn.2, Bool.eq_false_iff.mpr hn.1⟩
    exact h key done a between b after heq hk ht hb

/-- In a run that starts with no stream, at most one task is started for each stream and the end of
a task takes no entry of another task out exactly if no OPEN that the table does not refuse comes
after the entry of its stream was taken out: by a CLOSE, by a queue that takes nothing more, by the
end of its task, or by the close of its session. -/
theorem one_task_per_stream_iff_no_late_open (actions : List Action) :
    (Runs.Always step OneTaskPerStream {} actions ∧ Runs.Along step RemovesOwnEntry {} actions) ↔
      NoLateOpen actions := by
  rw [← opensOnce_iff_noLateOpen]
  have hempty : OneTaskPerStream {} := List.nodup_nil
  have hn : EntriesNameTasks {} := fun e he => nomatch he
  have ht : Runs.Along step (fun _ _ => True) {} actions :=
    Runs.along_of_forall fun _ _ => trivial
  have hif : Runs.Always step OneTaskPerStream {} actions ↔
      Runs.Along step OpensOnce {} actions :=
    Runs.always_iff_along (I := EntriesNameTasks) (Q := fun _ _ => True)
      (fun s a hi _ => entriesNameTasks_step hi a)
      (fun s a _ hp _ => oneTaskPerStream_step hp a) hn hempty ht
  refine ⟨fun h => hif.mp h.1, fun h => ⟨hif.mpr h, ?_⟩⟩
  have ho := Runs.along_of_always (hif.mpr h)
  have ha : Runs.Along step (fun s _ => EntriesNameTasks s) {} actions :=
    Runs.along_of_always (Runs.always_invariant (fun s a hi _ => entriesNameTasks_step hi a)
      hn ht)
  exact Runs.along_mono (fun s a hs => removesOwnEntry_of_oneTask hs.1 hs.2 a)
    (Runs.along_and.mpr ⟨ho, ha⟩)

def sampleOpen : Bytes := encodeFrame ⟨kindOpen, 1, [1, 192, 0, 2, 1, 0, 80]⟩

def sampleClose : Bytes := encodeFrame ⟨kindClose, 1, []⟩

/-- An OPEN, its CLOSE and a copy of the OPEN, before the task of the first one has ended. -/
def lateOpenCopy : List Action :=
  [.frame 7 sampleOpen true, .frame 7 sampleClose true, .frame 7 sampleOpen true,
    .finish 0 false true true]

theorem late_open_copy_starts_second_task :
    Copies [] [sampleOpen, sampleClose] (lateOpenCopy.filterMap (Action.frameOf 7)) ∧
      (lateOpenCopy.foldl step {}).started = [(7, 1), (7, 1)] ∧
      ((lateOpenCopy.take 3).foldl step {}).streams = [((7, 1), 1)] ∧
      (lateOpenCopy.foldl step {}).streams = [] ∧
      ¬ (Runs.Always step OneTaskPerStream {} lateOpenCopy ∧
        Runs.Along step RemovesOwnEntry {} lateOpenCopy) := by
  refine ⟨?_, by decide +kernel, by decide +kernel, by decide +kernel, ?_⟩
  · refine .frame _ _ (.frame _ _ (.copy sampleOpen ?_ (by decide +kernel) (.nil _)))
    exact List.mem_cons_of_mem _ (List.mem_cons_self ..)
  · rintro ⟨h, _⟩
    have hl : OneTaskPerStream (lateOpenCopy.foldl step {}) := Runs.always_iff_take.mp h 4
    have ht : (lateOpenCopy.foldl step {}).started = [(7, 1), (7, 1)] := by decide +kernel
    rw [OneTaskPerStream, ht] at hl
    exact absurd hl (by decide)

end ProxyTable
end Csqtt
