import Mathlib.Data.List.Sort
import Mathlib.Logic.Function.Basic

/-!
# The routes of the tunnel addresses

`RouteTable`: for each address of the tunnel network the endpoints its packets can be sent to, in
the order of their workers. An endpoint is the slot of a session together with what the session has
to be to be meant.
-/

namespace Csqtt

abbrev Ipv4 := UInt8 × UInt8 × UInt8 × UInt8

abbrev Subnet := UInt8 × UInt8 × UInt8

structure RouteEndpoint where
  sessionId : ℕ
  registrationId : ℕ
  workerId : ℕ
  slot : ℕ
  deriving DecidableEq

namespace RouteGroup

/-- The endpoint takes the place of those of its registration and of its worker. -/
def register (endpoints : List RouteEndpoint) (endpoint : RouteEndpoint) : List RouteEndpoint :=
  ((endpoints.filter fun current =>
    current.registrationId ≠ endpoint.registrationId ∧ current.workerId ≠ endpoint.workerId) ++
      [endpoint]).insertionSort fun a b => a.workerId ≤ b.workerId

def unregister (endpoints : List RouteEndpoint) (registrationId : ℕ) : List RouteEndpoint × Bool :=
  let kept := endpoints.filter (·.registrationId ≠ registrationId)
  (kept, kept.length ≠ endpoints.length)

end RouteGroup

/-- The endpoints by the last octet of the address. -/
abbrev RouteTable := UInt8 → List RouteEndpoint

namespace RouteTable

def empty : RouteTable := fun _ => []

def routeIndex (net : Subnet) (ip : Ipv4) : Option UInt8 :=
  if (ip.1, ip.2.1, ip.2.2.1) = net then some ip.2.2.2 else none

def extractDstIpv4 (packet : List UInt8) : Option Ipv4 :=
  match packet.head?, packet[16]?, packet[17]?, packet[18]?, packet[19]? with
  | some first, some a, some b, some c, some d =>
    if first >>> 4 = 4 then some (a, b, c, d) else none
  | _, _, _, _, _ => none

def packetKey (net : Subnet) (packet : List UInt8) : Option UInt8 :=
  (extractDstIpv4 packet).bind (routeIndex net)

def register (net : Subnet) (routes : RouteTable) (ip : Ipv4) (endpoint : RouteEndpoint) :
    RouteTable × Bool :=
  match routeIndex net ip with
  | none => (routes, false)
  | some key => (Function.update routes key (RouteGroup.register (routes key) endpoint), true)

def updateSlot (net : Subnet) (routes : RouteTable) (ip : Ipv4)
    (sessionId registrationId slot : ℕ) : RouteTable :=
  match routeIndex net ip with
  | none => routes
  | some key =>
    let isEndpoint := fun endpoint : RouteEndpoint =>
      decide (endpoint.sessionId = sessionId ∧ endpoint.registrationId = registrationId)
    Function.update routes key
      ((routes key).modify ((routes key).findIdx isEndpoint) fun endpoint => { endpoint with slot })

def unregister (net : Subnet) (routes : RouteTable) (ip : Ipv4) (registrationId : ℕ) :
    RouteTable × Bool :=
  match routeIndex net ip with
  | none => (routes, false)
  | some key =>
    let (endpoints, removed) := RouteGroup.unregister (routes key) registrationId
    (Function.update routes key endpoints, removed)

theorem routeIndex_eq_some {net : Subnet} {ip : Ipv4} {key : UInt8} :
    routeIndex net ip = some key ↔ ip = (net.1, net.2.1, net.2.2, key) := by
  unfold routeIndex
  obtain ⟨a, b, c, d⟩ := ip
  obtain ⟨x, y, z⟩ := net
  by_cases h : (a, b, c) = (x, y, z)
  · cases h
    simp
  · rw [if_neg h]
    refine iff_of_false (fun heq => by cases heq) fun heq => h ?_
    cases heq
    rfl

/-- The group of an address changes, if the address has one. -/
def change (net : Subnet) (routes : RouteTable) (ip : Ipv4)
    (f : List RouteEndpoint → List RouteEndpoint) : RouteTable :=
  match routeIndex net ip with
  | none => routes
  | some key => Function.update routes key (f (routes key))

variable (net : Subnet) (routes : RouteTable) (ip : Ipv4)

theorem change_apply (f : List RouteEndpoint → List RouteEndpoint) (key : UInt8) :
    change net routes ip f key = if routeIndex net ip = some key then f (routes key)
      else routes key := by
  unfold change
  cases hip : routeIndex net ip with
  | none => rw [if_neg (fun heq => by cases heq)]
  | some k =>
    dsimp only
    rw [Function.update_apply]
    by_cases hk : key = k
    · rw [if_pos hk, if_pos (by rw [hk]), hk]
    · rw [if_neg hk, if_neg (fun heq => hk (Option.some.inj heq).symm)]

theorem routes_register (endpoint : RouteEndpoint) (key : UInt8) :
    (register net routes ip endpoint).1 key =
      if routeIndex net ip = some key then RouteGroup.register (routes key) endpoint
      else routes key := by
  rw [← change_apply net routes ip (RouteGroup.register · endpoint)]
  unfold register change
  cases routeIndex net ip <;> rfl

theorem routes_unregister (registrationId : ℕ) (key : UInt8) :
    (unregister net routes ip registrationId).1 key =
      if routeIndex net ip = some key then (routes key).filter (·.registrationId ≠ registrationId)
      else routes key := by
  rw [← change_apply net routes ip (List.filter _)]
  unfold unregister change
  cases routeIndex net ip <;> rfl

theorem routes_updateSlot (sessionId registrationId slot : ℕ) (key : UInt8) :
    updateSlot net routes ip sessionId registrationId slot key =
      if routeIndex net ip = some key then (routes key).modify ((routes key).findIdx fun endpoint =>
          decide (endpoint.sessionId = sessionId ∧ endpoint.registrationId = registrationId))
          fun endpoint => { endpoint with slot } else routes key := by
  rw [← change_apply net routes ip fun endpoints => endpoints.modify (endpoints.findIdx _) _]
  cases routeIndex net ip <;> rfl

end RouteTable

theorem RouteGroup.mem_register {endpoints : List RouteEndpoint} {endpoint x : RouteEndpoint}
    (h : x ∈ RouteGroup.register endpoints endpoint) : x = endpoint ∨ x ∈ endpoints := by
  have hm := (List.perm_insertionSort _ _).mem_iff.mp h
  obtain hx | hx := List.mem_append.mp hm
  · exact .inr (List.mem_filter.mp hx).1
  · exact .inl (List.mem_singleton.mp hx)

theorem RouteGroup.nodup_register {endpoints : List RouteEndpoint} (endpoint : RouteEndpoint)
    (h : (endpoints.map (·.registrationId)).Nodup) :
    ((RouteGroup.register endpoints endpoint).map (·.registrationId)).Nodup := by
  unfold RouteGroup.register
  rw [((List.perm_insertionSort _ _).map _).nodup_iff, List.map_append, List.nodup_append]
  refine ⟨h.sublist (List.filter_sublist.map _), List.nodup_singleton _, fun a ha b hb => ?_⟩
  obtain ⟨x, hx, rfl⟩ := List.mem_map.mp ha
  rw [List.mem_singleton.mp hb]
  exact (of_decide_eq_true (List.mem_filter.mp hx).2).1

end Csqtt
