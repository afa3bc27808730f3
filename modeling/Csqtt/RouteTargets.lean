import Csqtt.ServerRoutine

/-!
# Where the routes lead

`Routed` says that each endpoint of the route table leads to the session it was registered for, in
the group of its tunnel address. It is kept by what the engine does to the table and to the
sessions, one lemma for each.
-/

namespace Csqtt

structure RouteEndpoint.LeadsTo (net : Subnet) (key : UInt8) (endpoint : RouteEndpoint)
    (s : HotSession) : Prop where
  sessionId : s.id = endpoint.sessionId
  registrationId : s.registrationId = some endpoint.registrationId
  tunnelIp : ∃ ip, s.tunnelIp = some ip ∧ RouteTable.routeIndex net ip = some key

structure Routed (net : Subnet) (routes : RouteTable) (live : ℕ → Option HotSession) : Prop where
  leads : ∀ key, ∀ endpoint ∈ routes key, ∃ s, live endpoint.slot = some s ∧
    endpoint.LeadsTo net key s
  nodup : ∀ key, ((routes key).map (·.registrationId)).Nodup

def RouteTable.Avoids (routes : RouteTable) (slot : ℕ) : Prop :=
  ∀ key, ∀ endpoint ∈ routes key, endpoint.slot ≠ slot

def RouteTable.moved (net : Subnet) (routes : RouteTable) (s : HotSession) (slot : ℕ) :
    RouteTable :=
  match s.tunnelIp, s.registrationId with
  | some ip, some registrationId => updateSlot net routes ip s.id registrationId slot
  | _, _ => routes

theorem RouteTable.without_cases (net : Subnet) (routes : RouteTable) (s : HotSession) :
    (∃ ip registrationId, s.tunnelIp = some ip ∧ s.registrationId = some registrationId ∧
        routes.without net s = (unregister net routes ip registrationId).1) ∨
      routes.without net s = routes ∧
        ∀ ip registrationId, s.tunnelIp = some ip → s.registrationId ≠ some registrationId := by
  unfold without
  split
  · rename_i ip registrationId hip hr
    exact .inl ⟨ip, registrationId, hip, hr, rfl⟩
  · rename_i hn
    exact .inr ⟨rfl, hn⟩

theorem RouteTable.moved_cases (net : Subnet) (routes : RouteTable) (s : HotSession) (slot : ℕ) :
    (∃ ip registrationId, s.tunnelIp = some ip ∧ s.registrationId = some registrationId ∧
        routes.moved net s slot = updateSlot net routes ip s.id registrationId slot) ∨
      routes.moved net s slot = routes ∧
        ∀ ip registrationId, s.tunnelIp = some ip → s.registrationId ≠ some registrationId := by
  unfold moved
  split
  · rename_i ip registrationId hip hr
    exact .inl ⟨ip, registrationId, hip, hr, rfl⟩
  · rename_i hn
    exact .inr ⟨rfl, hn⟩

theorem RouteTable.length_moved (net : Subnet) (routes : RouteTable) (s : HotSession) (slot : ℕ)
    (key : UInt8) : (routes.moved net s slot key).length = (routes key).length := by
  obtain ⟨ip, registrationId, -, -, hr⟩ | ⟨hr, -⟩ := moved_cases net routes s slot
  · rw [hr, routes_updateSlot]
    split_ifs
    · exact List.length_modify _ _ _
    · rfl
  · rw [hr]

/-- Where at most one entry meets the condition, changing the first one that does is changing all.
-/
theorem modify_findIdx {α : Type*} {l : List α} {p : α → Bool} (f : α → α)
    (h : l.Pairwise fun a b => ¬(p a ∧ p b)) :
    l.modify (l.findIdx p) f = l.map fun a => if p a then f a else a := by
  induction l with
  | nil => rw [List.modify_nil, List.map_nil]
  | cons a l ih =>
    obtain ⟨hh, ht⟩ := List.pairwise_cons.mp h
    rw [List.findIdx_cons, List.map_cons]
    by_cases ha : p a
    · have hr : l.map (fun b => if p b then f b else b) = l := by
        have hs : ∀ b ∈ l, (if p b then f b else b) = id b :=
          fun b hb => if_neg fun hp => hh b hb ⟨ha, hp⟩
        rw [List.map_congr_left hs, List.map_id]
      rw [ha, cond_true, List.modify_zero_cons, if_pos rfl, hr]
    · rw [Bool.not_eq_true] at ha
      rw [ha, cond_false, List.modify_succ_cons, ih ht]
      rfl

namespace Routed

variable {net : Subnet} {routes : RouteTable} {live live' : ℕ → Option HotSession}

theorem empty (live : ℕ → Option HotSession) : Routed net .empty live :=
  ⟨fun _ _ h => absurd h List.not_mem_nil, fun _ => List.nodup_nil⟩

theorem of_live (h : Routed net routes live)
    (hlive : ∀ i s, live i = some s → ∃ s', live' i = some s' ∧
    s'.id = s.id ∧ s'.registrationId = s.registrationId ∧ s'.tunnelIp = s.tunnelIp) :
    Routed net routes live' where
  leads key endpoint hm := by
    obtain ⟨s, hs, hl⟩ := h.leads key endpoint hm
    obtain ⟨s', hs', hid, hr, hip⟩ := hlive endpoint.slot s hs
    exact ⟨s', hs', hid.trans hl.sessionId, hr.trans hl.registrationId, hip ▸ hl.tunnelIp⟩
  nodup := h.nodup

variable {slot : ℕ}

section

variable (h : Routed net routes live)
include h

theorem of_avoids (ha : routes.Avoids slot) (hl : ∀ i, i ≠ slot → live' i = live i) :
    Routed net routes live' where
  leads key endpoint hm := by
    rw [hl endpoint.slot (ha key endpoint hm)]
    exact h.leads key endpoint hm
  nodup := h.nodup

theorem unregister (ip : Ipv4) (registrationId : ℕ) :
    Routed net (RouteTable.unregister net routes ip registrationId).1 live where
  leads key endpoint hm := by
    rw [RouteTable.routes_unregister] at hm
    split_ifs at hm
    · exact h.leads key endpoint (List.mem_filter.mp hm).1
    · exact h.leads key endpoint hm
  nodup key := by
    rw [RouteTable.routes_unregister]
    split_ifs
    · exact (h.nodup key).sublist (List.filter_sublist.map _)
    · exact h.nodup key

theorem without (s : HotSession) : Routed net (routes.without net s) live := by
  unfold RouteTable.without
  split
  · exact h.unregister _ _
  · exact h

end

variable {s : HotSession}

section

variable (h : Routed net routes live)
include h

theorem avoids_without (hs : live slot = some s) : (routes.without net s).Avoids slot := by
  intro key endpoint hm hslot
  have hl : endpoint ∈ routes key → endpoint.LeadsTo net key s := by
    intro ho
    obtain ⟨t, ht, hl⟩ := h.leads key endpoint ho
    rw [hslot, hs] at ht
    cases ht
    exact hl
  obtain ⟨ip, registrationId, hip, hreg, hr⟩ | ⟨hr, hn⟩ :=
    RouteTable.without_cases net routes s
  · rw [hr, RouteTable.routes_unregister] at hm
    split_ifs at hm with hk
    · obtain ⟨ho, hne⟩ := List.mem_filter.mp hm
      have hsame := (hl ho).registrationId
      rw [hreg] at hsame
      exact of_decide_eq_true hne (Option.some.inj hsame).symm
    · obtain ⟨ip', hi', hk'⟩ := (hl hm).tunnelIp
      rw [hip] at hi'
      cases hi'
      exact hk hk'
  · rw [hr] at hm
    obtain ⟨ip, hip, -⟩ := (hl hm).tunnelIp
    exact hn ip endpoint.registrationId hip (hl hm).registrationId

theorem register {ip : Ipv4} {endpoint : RouteEndpoint} (hs : live endpoint.slot = some s)
    (hid : s.id = endpoint.sessionId) (hr : s.registrationId = some endpoint.registrationId)
    (hip : s.tunnelIp = some ip) :
    Routed net (RouteTable.register net routes ip endpoint).1 live where
  leads key x hm := by
    rw [RouteTable.routes_register] at hm
    split_ifs at hm with hk
    · obtain rfl | ho := RouteGroup.mem_register hm
      · exact ⟨s, hs, hid, hr, ip, hip, hk⟩
      · exact h.leads key x ho
    · exact h.leads key x hm
  nodup key := by
    rw [RouteTable.routes_register]
    split_ifs
    · exact RouteGroup.nodup_register endpoint (h.nodup key)
    · exact h.nodup key

theorem routes_updateSlot (ip : Ipv4) (sessionId registrationId slot : ℕ) (key : UInt8) :
    RouteTable.updateSlot net routes ip sessionId registrationId slot key =
      (routes key).map fun endpoint =>
        if RouteTable.routeIndex net ip = some key ∧ endpoint.sessionId = sessionId ∧
          endpoint.registrationId = registrationId then { endpoint with slot } else endpoint := by
  rw [RouteTable.routes_updateSlot]
  split_ifs with hk
  · rw [modify_findIdx]
    · simp only [hk, true_and, decide_eq_true_eq]
    · apply (List.pairwise_map.mp (h.nodup key)).imp
      intro a b hne hb
      exact hne ((of_decide_eq_true hb.1).2.trans (of_decide_eq_true hb.2).2.symm)
  · simp only [hk, false_and, if_false, List.map_id']

theorem nodup_updateSlot (ip : Ipv4) (sessionId registrationId slot : ℕ) (key : UInt8) :
    ((RouteTable.updateSlot net routes ip sessionId registrationId slot key).map
      (·.registrationId)).Nodup := by
  rw [h.routes_updateSlot, List.map_map]
  convert h.nodup key using 2
  funext endpoint
  rw [Function.comp_apply]
  split_ifs <;> rfl

/-- The session at `last` moves to `slot`, and its routes follow. -/
theorem move {last : ℕ} (hlast : live last = some s) (hslot : live' slot = some s)
    (hlive : ∀ i t, i ≠ last → live i = some t → live' i = some t) :
    Routed net (routes.moved net s slot) live' := by
  -- an endpoint that leads to `last` is one of this session
  have hfrom : ∀ key, ∀ endpoint ∈ routes key, endpoint.slot = last →
    endpoint.LeadsTo net key s := by
    intro key endpoint hmem heq
    obtain ⟨t, ht, hlead⟩ := h.leads key endpoint hmem
    rw [heq, hlast] at ht
    cases ht
    exact hlead
  have hother : ∀ key, ∀ endpoint ∈ routes key, endpoint.slot ≠ last →
      ∃ t, live' endpoint.slot = some t ∧ endpoint.LeadsTo net key t := by
    intro key endpoint hmem hne
    obtain ⟨t, ht, hlead⟩ := h.leads key endpoint hmem
    exact ⟨t, hlive endpoint.slot t hne ht, hlead⟩
  obtain ⟨ip, registrationId, hip, hreg, hroutes⟩ | ⟨hroutes, hnone⟩ :=
    RouteTable.moved_cases net routes s slot
  · rw [hroutes]
    refine ⟨fun key x hmem => ?_, h.nodup_updateSlot ip s.id registrationId slot⟩
    rw [h.routes_updateSlot] at hmem
    obtain ⟨endpoint, hold, rfl⟩ := List.mem_map.mp hmem
    split_ifs with hthis
    · obtain ⟨hkey, hid, hregistration⟩ := hthis
      exact ⟨s, hslot, hid.symm, hreg.trans (congrArg some hregistration.symm), ip, hip, hkey⟩
    · apply hother key endpoint hold
      intro heq
      have hlead := hfrom key endpoint hold heq
      obtain ⟨ip', hip', hkey⟩ := hlead.tunnelIp
      rw [hip] at hip'
      cases hip'
      have hregistration := hreg.symm.trans hlead.registrationId
      exact hthis ⟨hkey, hlead.sessionId.symm, (Option.some.inj hregistration).symm⟩
  · rw [hroutes]
    refine ⟨fun key endpoint hmem => hother key endpoint hmem fun heq => ?_, h.nodup⟩
    have hlead := hfrom key endpoint hmem heq
    obtain ⟨ip, hip, -⟩ := hlead.tunnelIp
    exact hnone ip _ hip hlead.registrationId

end

end Routed
end Csqtt
