import Csqtt.Mailbox
import Csqtt.Runs

/-!
# Tables of bounded channels

`deliver` sends to the channel of a key without waiting and takes the entry out if that fails;
`close` takes the entry out first and then sends a last item. For the receiver of one channel the
table is a mailbox. `Feeds` says what a step may do to a mailbox such that the items received are
the first of those that were submitted.
-/

namespace Mailbox

variable {α : Type*}

/-- What the receiver can still get if `submitted` comes. -/
def due (m : Mailbox α) (submitted : List α) : List α :=
  m.items ++ if m.linked then submitted else []

/-- A step with these items submitted and received gives the receiver nothing that it would not have
got in this place before. -/
def Feeds (m m' : Mailbox α) (submitted received : List α) : Prop :=
  ∀ later, received ++ m'.due later <+: m.due (submitted ++ later)

variable {m m' m'' : Mailbox α} {submitted submitted' received : List α} {a : α}

theorem due_of_not_linked (h : m.linked = false) (submitted : List α) :
    m.due submitted = m.items := by
  rw [due, h, if_neg Bool.false_ne_true, List.append_nil]

theorem due_of_linked (h : m.linked = true) (submitted : List α) :
    m.due submitted = m.items ++ submitted := by
  rw [due, h, if_pos rfl]

theorem items_prefix_due (m : Mailbox α) (submitted : List α) : m.items <+: m.due submitted :=
  List.prefix_append _ _

theorem due_le_append (m : Mailbox α) (submitted : List α) :
    m.due submitted <+: m.items ++ submitted := by
  rw [due]
  split_ifs
  · exact List.prefix_rfl
  · rw [List.append_nil]
    exact List.prefix_append _ _

namespace Feeds

theorem refl (m : Mailbox α) : Feeds m m [] [] := fun _ => List.prefix_rfl

theorem trans {received' : List α} (h : Feeds m m' submitted received)
    (h' : Feeds m' m'' submitted' received') :
    Feeds m m'' (submitted ++ submitted') (received ++ received') := by
  intro later
  have hf := h (submitted' ++ later)
  have hs := (List.prefix_append_right_inj received).mpr (h' later)
  rw [List.append_assoc, List.append_assoc]
  exact hs.trans hf

theorem of_not_linked (h : Feeds m m' submitted received) (hl : m.linked = false)
    (submitted' : List α) : Feeds m m' submitted' received := by
  intro later
  have hf := h later
  rw [due_of_not_linked hl] at hf ⊢
  exact hf

theorem idle (hit : m'.items = m.items) (hlinked : m'.linked = true → m.linked = true) :
    Feeds m m' [] [] := by
  intro later
  cases hl : m'.linked with
  | true =>
    rewrite [due_of_linked hl, due_of_linked (hlinked hl), hit]
    exact List.prefix_rfl
  | false =>
    rw [due_of_not_linked hl, hit]
    exact items_prefix_due m later

theorem lost (hit : m'.items = m.items) (hl : m'.linked = false) (submitted : List α) :
    Feeds m m' submitted [] := by
  intro later
  rw [due_of_not_linked hl, hit]
  exact items_prefix_due m _

theorem queued (hit : m'.items = m.items ++ [a]) (hl : m.linked = true) :
    Feeds m m' [a] [] := by
  intro later
  rw [due_of_linked hl, ← List.append_assoc, ← hit]
  exact due_le_append m' later

theorem taken (hit : m.items = received ++ m'.items) (hl : m'.linked = m.linked) :
    Feeds m m' [] received := by
  intro later
  rewrite [due, due, hit, hl, List.append_assoc]
  exact List.prefix_rfl

theorem collect {σ ι : Type*} {step : σ → ι → σ} {I : σ → Prop} (view : σ → Mailbox α)
    {submits : ι → List α} {receives : σ → ι → List α} (hstep : ∀ s i, I s → I (step s i) ∧
      Feeds (view s) (view (step s i)) (submits i) (receives s i)) {s : σ} (hs : I s)
    (is : List ι) : Runs.collect step receives s is <+: (view s).due (is.flatMap submits) := by
  induction is generalizing s with
  | nil => exact List.nil_prefix
  | cons i _ ih =>
    obtain ⟨hs', hf⟩ := hstep s i hs
    have hr := (List.prefix_append_right_inj (receives s i)).mpr (ih hs')
    exact hr.trans (hf _)

end Feeds
end Mailbox

structure Channel (α : Type*) where
  items : List α := []
  alive : Bool := true

structure SenderTable (κ α : Type*) where
  senders : List (κ × ℕ) := []
  channels : List (Channel α) := []

namespace SenderTable

variable {κ α : Type*} [DecidableEq κ] (capacity : ℕ)

def get (t : SenderTable κ α) (key : κ) : Option ℕ := t.senders.lookup key

def remove (t : SenderTable κ α) (key : κ) : SenderTable κ α :=
  { t with senders := t.senders.filter (·.1 ≠ key) }

/-- A new channel, whose entry takes the place of the one its key may have. -/
def insert (t : SenderTable κ α) (key : κ) : SenderTable κ α where
  senders := (t.remove key).senders ++ [(key, t.channels.length)]
  channels := t.channels ++ [{}]

def trySend (t : SenderTable κ α) (n : ℕ) (a : α) : Option (SenderTable κ α) :=
  match t.channels[n]? with
  | none => none
  | some c =>
    if c.alive ∧ c.items.length < capacity then
      some { t with channels := t.channels.set n { c with items := c.items ++ [a] } }
    else none

def deliver (t : SenderTable κ α) (key : κ) (a : α) : SenderTable κ α :=
  match t.get key with
  | none => t
  | some n => (t.trySend capacity n a).getD (t.remove key)

def close (t : SenderTable κ α) (key : κ) (a : α) : SenderTable κ α :=
  match t.get key with
  | none => t
  | some n => ((t.remove key).trySend capacity n a).getD (t.remove key)

def receive (t : SenderTable κ α) (n : ℕ) : SenderTable κ α :=
  match t.channels[n]? with
  | none => t
  | some c =>
    if c.alive then { t with channels := t.channels.set n { c with items := c.items.tail } } else t

def hangUp (t : SenderTable κ α) (n : ℕ) : SenderTable κ α :=
  match t.channels[n]? with
  | none => t
  | some c => { t with channels := t.channels.set n { c with alive := false } }

/-- What the receiver of a channel gets from `receive`. -/
def next (t : SenderTable κ α) (n : ℕ) : List α :=
  match t.channels[n]? with
  | none => []
  | some c => if c.alive then c.items.take 1 else []

def items (t : SenderTable κ α) (n : ℕ) : List α := (t.channels[n]?).elim [] Channel.items

/-- The channel `n` for its receiver, who was entered under `key`. -/
def mailbox (t : SenderTable κ α) (key : κ) (n : ℕ) : Mailbox α :=
  ⟨t.items n, decide (t.get key = some n)⟩

variable {capacity} {t t' t'' : SenderTable κ α} {key key' : κ} {n n' : ℕ} {a : α}

theorem get_remove (t : SenderTable κ α) (key key' : κ) :
    (t.remove key').get key = if key = key' then none else t.get key := by
  unfold get remove
  induction t.senders with
  | nil => split_ifs <;> rfl
  | cons entry _ ih =>
    rw [List.filter_cons, List.lookup_cons]
    by_cases he : entry.1 = key'
    · rw [if_neg (by simp [he]), ih]
      split_ifs with hk
      · rfl
      · rw [he, beq_false_of_ne hk]
    · rw [if_pos (by simp [he]), List.lookup_cons, ih]
      split_ifs with hk
      · rw [hk, beq_false_of_ne (Ne.symm he)]
      · rfl

theorem get_insert (t : SenderTable κ α) (key key' : κ) :
    (t.insert key').get key = if key = key' then some t.channels.length else t.get key := by
  have hr := t.get_remove key key'
  rw [get] at hr
  rw [get, insert, List.lookup_append, hr]
  split_ifs with hk
  · rw [Option.none_or, List.lookup_cons, beq_iff_eq.mpr hk]
  · rw [List.lookup_cons, beq_false_of_ne hk]
    exact Option.or_none

omit [DecidableEq κ] in
theorem items_eq {c : Channel α} (hc : t.channels[n]? = some c) : t.items n = c.items := by
  rw [items, hc]
  rfl

omit [DecidableEq κ] in
theorem items_set {c : Channel α} (hc : t.channels[n]? = some c) (c' : Channel α) (n' : ℕ) :
    ({ t with channels := t.channels.set n c' } : SenderTable κ α).items n' =
      if n' = n then c'.items else t.items n' := by
  obtain ⟨hlt, _⟩ := List.getElem?_eq_some_iff.mp hc
  unfold items
  dsimp only
  rw [List.getElem?_set]
  by_cases hn : n = n'
  · rw [if_pos hn, if_pos hlt, if_pos hn.symm]
    rfl
  · rw [if_neg hn, if_neg (Ne.symm hn)]

omit [DecidableEq κ] in
theorem trySend_eq_some (h : t.trySend capacity n a = some t') :
    t'.senders = t.senders ∧ t'.channels.length = t.channels.length ∧
      ∀ n', t'.items n' = if n' = n then t.items n ++ [a] else t.items n' := by
  unfold trySend at h
  split at h
  · cases h
  · rename_i c hc
    split_ifs at h
    rw [← Option.some.inj h]
    refine ⟨rfl, List.length_set, fun n' => ?_⟩
    rw [items_set hc, items_eq hc]

/-- No channel and no entry is new. -/
structure Shrinks (t t' : SenderTable κ α) : Prop where
  length : t'.channels.length = t.channels.length
  get : ∀ key n, t'.get key = some n → t.get key = some n

namespace Shrinks

theorem refl (t : SenderTable κ α) : Shrinks t t := ⟨rfl, fun _ _ h => h⟩

theorem trans (h : Shrinks t t') (h' : Shrinks t' t'') : Shrinks t t'' :=
  ⟨h'.length.trans h.length, fun key n hg => h.get key n (h'.get key n hg)⟩

theorem get_eq_none (h : Shrinks t t') (hn : t.get key = none) : t'.get key = none := by
  cases hg : t'.get key with
  | none => rfl
  | some n =>
    rw [h.get key n hg] at hn
    cases hn

theorem remove (t : SenderTable κ α) (key : κ) : Shrinks t (t.remove key) := by
  refine ⟨rfl, fun key' n hg => ?_⟩
  rw [get_remove] at hg
  split_ifs at hg
  exact hg

theorem trySend (h : t.trySend capacity n a = some t') : Shrinks t t' := by
  obtain ⟨hs, hl, _⟩ := trySend_eq_some h
  refine ⟨hl, fun key n hg => ?_⟩
  rw [SenderTable.get, hs] at hg
  exact hg

variable (t)

theorem deliver (key : κ) (a : α) : Shrinks t (t.deliver capacity key a) := by
  unfold SenderTable.deliver
  split
  · exact refl t
  · rename_i n _
    cases hs : t.trySend capacity n a with
    | none => exact remove t key
    | some => exact trySend hs

theorem close (key : κ) (a : α) : Shrinks t (t.close capacity key a) := by
  unfold SenderTable.close
  split
  · exact refl t
  · rename_i n _
    cases hs : (t.remove key).trySend capacity n a with
    | none => exact remove t key
    | some => exact (remove t key).trans (trySend hs)

theorem receive (n : ℕ) : Shrinks t (t.receive n) := by
  unfold SenderTable.receive
  split
  · exact refl t
  · split_ifs
    · exact ⟨List.length_set, fun _ _ h => h⟩
    · exact refl t

theorem hangUp (n : ℕ) : Shrinks t (t.hangUp n) := by
  unfold SenderTable.hangUp
  split
  · exact refl t
  · exact ⟨List.length_set, fun _ _ h => h⟩

end Shrinks

/-- Every entry leads to a channel. -/
def Wired (t : SenderTable κ α) : Prop := ∀ key n, t.get key = some n → n < t.channels.length

theorem Wired.shrinks (h : t.Wired) (hs : Shrinks t t') : t'.Wired := by
  intro key n hg
  rw [hs.length]
  exact h key n (hs.get key n hg)

theorem get_deliver_of_ne (t : SenderTable κ α) (h : key ≠ key') (a : α) :
    (t.deliver capacity key' a).get key = t.get key := by
  unfold deliver
  split
  · rfl
  · rename_i n _
    cases hs : t.trySend capacity n a with
    | none =>
      rw [Option.getD_none, get_remove, if_neg h]
    | some =>
      rw [Option.getD_some, get, (trySend_eq_some hs).1]
      rfl

theorem length_insert (t : SenderTable κ α) (key : κ) :
    (t.insert key).channels.length = t.channels.length + 1 := List.length_append

theorem Wired.insert (h : t.Wired) (key : κ) : (t.insert key).Wired := by
  intro key' n hg
  rw [length_insert]
  rw [get_insert] at hg
  split_ifs at hg
  · rw [← Option.some.inj hg]
    exact Nat.lt_succ_self _
  · exact Nat.lt_succ_of_lt (h key' n hg)

/-- The channel is there, and no entry but that of its key leads to it. -/
structure Owned (t : SenderTable κ α) (key : κ) (n : ℕ) : Prop where
  lt : n < t.channels.length
  key_eq : ∀ key', t.get key' = some n → key' = key

theorem Owned.shrinks (h : t.Owned key n) (hs : Shrinks t t') : t'.Owned key n := by
  refine ⟨?_, fun key' hg => h.key_eq key' (hs.get key' n hg)⟩
  rw [hs.length]
  exact h.lt

theorem Owned.insert (h : t.Owned key n) (key' : κ) : (t.insert key').Owned key n := by
  refine ⟨?_, fun k hg => ?_⟩
  · rw [length_insert]
    exact Nat.lt_succ_of_lt h.lt
  · rw [get_insert] at hg
    split_ifs at hg
    · have hlt := h.lt
      rw [← Option.some.inj hg] at hlt
      exact absurd hlt (Nat.lt_irrefl _)
    · exact h.key_eq k hg

theorem Wired.owned_insert (h : t.Wired) (key : κ) :
    (t.insert key).Owned key t.channels.length := by
  refine ⟨?_, fun key' hg => ?_⟩
  · rw [length_insert]
    exact Nat.lt_succ_self _
  · rw [get_insert] at hg
    split_ifs at hg with hk
    · exact hk
    · exact absurd (h key' _ hg) (Nat.lt_irrefl _)

theorem mailbox_linked_eq_false (h : t.get key ≠ some n) : (t.mailbox key n).linked = false :=
  decide_eq_false h

theorem mailbox_congr (hit : t'.items n = t.items n) (hg : t'.get key = t.get key) :
    t'.mailbox key n = t.mailbox key n := by
  rw [mailbox, mailbox, hit, hg]

/-- The items for `key` in what is submitted for `key'`. -/
def submission (key key' : κ) (a : α) : List α := if key' = key then [a] else []

theorem feeds_cut (t : SenderTable κ α) (key key' : κ) (n : ℕ) :
    Mailbox.Feeds (t.mailbox key n) ((t.remove key').mailbox key n) [] [] := by
  refine Mailbox.Feeds.idle (by rfl) fun hl => ?_
  exact decide_eq_true ((Shrinks.remove t key').get key n (of_decide_eq_true hl))

theorem feeds_remove (t : SenderTable κ α) (key key' : κ) (n : ℕ) (a : α) :
    Mailbox.Feeds (t.mailbox key n) ((t.remove key').mailbox key n) (submission key key' a) [] := by
  unfold submission
  split_ifs with hk
  · refine Mailbox.Feeds.lost (by rfl) (mailbox_linked_eq_false ?_) [a]
    rw [get_remove, if_pos hk.symm]
    exact nofun
  · exact feeds_cut t key key' n

theorem feeds_self (h : t.get key' ≠ some n) (a : α) :
    Mailbox.Feeds (t.mailbox key n) (t.mailbox key n) (submission key key' a) [] := by
  unfold submission
  split_ifs with hk
  · rw [hk] at h
    exact Mailbox.Feeds.lost rfl (mailbox_linked_eq_false h) [a]
  · exact Mailbox.Feeds.refl _

/-- An item is sent along an entry that leads to `n'`. -/
theorem mailbox_trySend_of_ne (hs : t.trySend capacity n' a = some t') (hn : n ≠ n') :
    t'.mailbox key n = t.mailbox key n := by
  obtain ⟨hsenders, _, hit⟩ := trySend_eq_some hs
  apply mailbox_congr
  · rw [hit, if_neg hn]
  · rw [get, hsenders]
    rfl

theorem get_close (t : SenderTable κ α) (key : κ) (a : α) :
    (t.close capacity key a).get key = none := by
  unfold close
  split
  · rename_i hg
    exact hg
  · rename_i n' _
    have hr : (t.remove key).get key = none := by rw [get_remove, if_pos rfl]
    cases hs : (t.remove key).trySend capacity n' a with
    | none => exact hr
    | some =>
      rw [Option.getD_some, get, (trySend_eq_some hs).1]
      exact hr

namespace Owned

variable (h : t.Owned key n)

include h

theorem feeds_queued (hg : t.get key' = some n) (hit : t'.items n = t.items n ++ [a]) :
    Mailbox.Feeds (t.mailbox key n) (t'.mailbox key n) (submission key key' a) [] := by
  obtain rfl := h.key_eq key' hg
  rw [submission, if_pos rfl]
  exact Mailbox.Feeds.queued hit (decide_eq_true hg)

theorem feeds_deliver (key' : κ) (a : α) :
    Mailbox.Feeds (t.mailbox key n) ((t.deliver capacity key' a).mailbox key n)
      (submission key key' a) [] := by
  unfold deliver
  split
  · rename_i hg
    exact feeds_self (by rw [hg]; exact nofun) a
  · rename_i n' hg
    cases hs : t.trySend capacity n' a with
    | none => exact feeds_remove t key key' n a
    | some =>
      rw [Option.getD_some]
      by_cases hn : n = n'
      · subst hn
        obtain ⟨_, _, hit⟩ := trySend_eq_some hs
        exact h.feeds_queued hg ((hit n).trans (if_pos rfl))
      · rw [mailbox_trySend_of_ne hs hn]
        refine feeds_self ?_ a
        rw [hg]
        exact fun hsame => hn (Option.some.inj hsame).symm

theorem feeds_close (key' : κ) (a : α) :
    Mailbox.Feeds (t.mailbox key n) ((t.close capacity key' a).mailbox key n)
      (submission key key' a) [] := by
  unfold close
  split
  · rename_i hg
    exact feeds_self (by rw [hg]; exact nofun) a
  · rename_i n' hg
    cases hs : (t.remove key').trySend capacity n' a with
    | none => exact feeds_remove t key key' n a
    | some =>
      rw [Option.getD_some]
      by_cases hn : n = n'
      · subst hn
        obtain ⟨_, _, hit⟩ := trySend_eq_some hs
        exact h.feeds_queued hg ((hit n).trans (if_pos rfl))
      · rw [mailbox_trySend_of_ne hs hn]
        exact feeds_remove t key key' n a

variable (capacity) in
theorem feeds_closeAll (keys : List κ) (a : α) :
    let closed := keys.foldl (fun t key => t.close capacity key a) t
    (key ∈ keys → Mailbox.Feeds (t.mailbox key n) (closed.mailbox key n) [a] []) ∧
      (key ∉ keys → Mailbox.Feeds (t.mailbox key n) (closed.mailbox key n) [] []) := by
  induction keys generalizing t with
  | nil => exact ⟨fun hm => absurd hm List.not_mem_nil, fun _ => Mailbox.Feeds.refl _⟩
  | cons key' keys ih =>
    have hf : Mailbox.Feeds _ ((t.close capacity key' a).mailbox key n) _ _ :=
      h.feeds_close key' a
    have hs : Shrinks t (t.close capacity key' a) := .close t key' a
    obtain ⟨hm, hn⟩ := ih (h.shrinks hs)
    by_cases hk : key' = key
    · subst hk
      have hclose : ((t.close capacity key' a).mailbox key' n).linked = false := by
        apply mailbox_linked_eq_false
        rw [get_close]
        exact nofun
      rw [submission, if_pos rfl] at hf
      refine ⟨fun _ => ?_, fun hno => absurd (List.mem_cons_self ..) hno⟩
      by_cases hr : key' ∈ keys
      · exact hf.trans ((hm hr).of_not_linked hclose [])
      · exact hf.trans (hn hr)
    · rw [submission, if_neg hk] at hf
      constructor
      · intro hc
        exact hf.trans (hm (List.mem_of_ne_of_mem (Ne.symm hk) hc))
      · intro hc
        exact hf.trans (hn fun hr => hc (List.mem_cons_of_mem _ hr))

theorem feeds_insert (key' : κ) :
    Mailbox.Feeds (t.mailbox key n) ((t.insert key').mailbox key n) [] [] := by
  apply Mailbox.Feeds.idle
  · change (t.insert key').items n = t.items n
    rw [items, SenderTable.insert, items, List.getElem?_append_left h.lt]
  · intro hl
    have hg := of_decide_eq_true hl
    rw [get_insert] at hg
    split_ifs at hg
    · have hlt := h.lt
      rw [← Option.some.inj hg] at hlt
      exact absurd hlt (Nat.lt_irrefl _)
    · exact decide_eq_true hg

end Owned

variable (t)

theorem feeds_receive (key : κ) (n n' : ℕ) :
    Mailbox.Feeds (t.mailbox key n) ((t.receive n').mailbox key n) []
      (if n' = n then t.next n else []) := by
  unfold receive next
  cases hc : t.channels[n']? with
  | none =>
    split_ifs with hn
    · rw [← hn, hc]
      exact Mailbox.Feeds.refl _
    · exact Mailbox.Feeds.refl _
  | some =>
    dsimp only
    split_ifs with ha hn
    · subst hn
      rw [hc]
      dsimp only
      rw [if_pos ha]
      refine Mailbox.Feeds.taken ?_ rfl
      change t.items n' = _ ++ SenderTable.items _ n'
      rw [items_set hc, if_pos rfl, items_eq hc, ← List.drop_one, List.take_append_drop]
    · refine Mailbox.Feeds.idle ?_ (fun hl => hl)
      change SenderTable.items _ n = t.items n
      rw [items_set hc, if_neg (Ne.symm hn)]
    · rename_i hn
      rw [← hn, hc]
      dsimp only
      rw [if_neg ha]
      exact Mailbox.Feeds.refl _
    · exact Mailbox.Feeds.refl _

theorem feeds_hangUp (key : κ) (n n' : ℕ) :
    Mailbox.Feeds (t.mailbox key n) ((t.hangUp n').mailbox key n) [] [] := by
  unfold hangUp
  split
  · exact Mailbox.Feeds.refl _
  · rename_i c hc
    refine Mailbox.Feeds.idle ?_ (fun hl => hl)
    change SenderTable.items _ n = t.items n
    rw [items_set hc]
    split_ifs with hn
    · rw [hn, items_eq hc]
    · rfl

theorem mailbox_insert (key : κ) (submitted : List α) :
    ((t.insert key).mailbox key t.channels.length).due submitted = submitted := by
  have hit : (t.insert key).items t.channels.length = [] := by
    rw [items, insert, List.getElem?_append_right (Nat.le_refl _), Nat.sub_self]
    rfl
  have hg : (t.insert key).get key = some t.channels.length := by rw [get_insert, if_pos rfl]
  rw [mailbox, hit, hg, Mailbox.due_of_linked (decide_eq_true rfl), List.nil_append]

end SenderTable
