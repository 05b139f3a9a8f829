import CryptoArbBot.Common.Types
import Mathlib.Data.List.Nodup

/-!
# The order manager (execution/order_manager.cpp)

A map from client ids to managed orders. The time stamps of an entry, which
only the unused `cleanup_old_orders` reads, are left out.
-/

namespace CryptoArbBot

structure ManagedOrder where
  request : OrderRequest
  result : OrderResult := {}
  deriving DecidableEq, Repr

/-- `orders_`: one entry for each client id. -/
structure OrderManager where
  orders : List (String × ManagedOrder) := []
  nodup : (orders.map Prod.fst).Nodup := by simp

namespace OrderManager

def replace (id : String) (f : ManagedOrder → ManagedOrder) (orders : List (String × ManagedOrder)) :
    List (String × ManagedOrder) :=
  orders.map fun e => if e.1 = id then (e.1, f e.2) else e

theorem replace_keys (id : String) (f : ManagedOrder → ManagedOrder)
    (orders : List (String × ManagedOrder)) :
    (replace id f orders).map Prod.fst = orders.map Prod.fst := by
  rw [replace, List.map_map]
  refine List.map_congr_left fun e _ => ?_
  by_cases he : e.1 = id
  · simp [he]
  · simp [he]

def getOrder (m : OrderManager) (clientId : String) : Option ManagedOrder :=
  (m.orders.find? fun e => e.1 = clientId).map Prod.snd

/-- `orders_[client_id] = managed`. -/
def assign (m : OrderManager) (clientId : String) (managed : ManagedOrder) : OrderManager :=
  if h : clientId ∈ m.orders.map Prod.fst then
    { orders := replace clientId (fun _ => managed) m.orders
      nodup := by
        rw [replace_keys]
        exact m.nodup }
  else
    { orders := m.orders ++ [(clientId, managed)]
      nodup := by
        rw [List.map_append]
        exact List.nodup_append'.mpr ⟨m.nodup, by simp, by simpa using h⟩ }

/-- `track_order`: a new entry is PENDING. -/
def trackOrder (m : OrderManager) (clientId : String) (req : OrderRequest) : OrderManager :=
  m.assign clientId { request := req, result := { status := .pending } }

/-- `update_order`: an unknown client id is ignored. -/
def updateOrder (m : OrderManager) (clientId : String) (result : OrderResult) : OrderManager where
  orders := replace clientId (fun managed => { managed with result }) m.orders
  nodup := by
    rw [replace_keys]
    exact m.nodup

def getOpenOrders (m : OrderManager) : List ManagedOrder :=
  (m.orders.map Prod.snd).filter fun o => o.result.status.live

def openOrderCount (m : OrderManager) : ℕ := m.orders.countP fun e => e.2.result.status.live

theorem openOrderCount_eq (m : OrderManager) : m.openOrderCount = m.getOpenOrders.length := by
  rw [openOrderCount, getOpenOrders, ← List.countP_eq_length_filter, List.countP_map]
  rfl

theorem trackOrder_orders (m : OrderManager) {clientId : String} (req : OrderRequest)
    (hfresh : clientId ∉ m.orders.map Prod.fst) :
    (m.trackOrder clientId req).orders =
      m.orders ++ [(clientId, { request := req, result := { status := .pending } })] := by
  unfold trackOrder assign
  rw [dif_neg hfresh]

theorem replace_append (id : String) (f : ManagedOrder → ManagedOrder)
    (front back : List (String × ManagedOrder)) :
    replace id f (front ++ back) = replace id f front ++ replace id f back := List.map_append

theorem replace_of_not_mem {id : String} {orders : List (String × ManagedOrder)}
    (h : id ∉ orders.map Prod.fst) (f : ManagedOrder → ManagedOrder) : replace id f orders = orders := by
  refine (List.map_congr_left fun e he => ?_).trans (List.map_id orders)
  exact if_neg fun heq => h (List.mem_map.mpr ⟨e, he, heq⟩)

/-! ### Lookups after an update -/

theorem find?_replace (id key : String) (f : ManagedOrder → ManagedOrder)
    (orders : List (String × ManagedOrder)) :
    ((replace id f orders).find? fun e => e.1 = key).map Prod.snd =
      if key = id then ((orders.find? fun e => e.1 = key).map Prod.snd).map f
      else (orders.find? fun e => e.1 = key).map Prod.snd := by
  induction orders with
  | nil => simp [replace]
  | cons e orders ih =>
    simp only [replace, List.map_cons] at ih ⊢
    by_cases hid : e.1 = id
    · by_cases hkey : e.1 = key
      · simp [hid, hid ▸ hkey]
      · have hne : ¬ id = key := hid ▸ hkey
        simpa [List.find?_cons, hid, hne] using ih
    · by_cases hkey : e.1 = key
      · have hne : ¬ key = id := hkey ▸ hid
        simp [hkey, hne]
      · simpa [List.find?_cons, hid, hkey] using ih

@[simp] theorem getOrder_assign_self (m : OrderManager) (id : String) (managed : ManagedOrder) :
    (m.assign id managed).getOrder id = some managed := by
  unfold assign getOrder
  split
  next h =>
    rw [find?_replace, if_pos rfl]
    obtain ⟨e, he, hid⟩ := List.mem_map.mp h
    cases hf : m.orders.find? fun e => e.1 = id with
    | none => simpa [hid] using List.find?_eq_none.mp hf e he
    | some e' => rfl
  next h =>
    have hf : (m.orders.find? fun e => e.1 = id) = none := by
      refine List.find?_eq_none.mpr fun e he => ?_
      have hne : e.1 ≠ id := fun heq => h (List.mem_map.mpr ⟨e, he, heq⟩)
      simpa using hne
    simp [List.find?_append, hf]

@[simp] theorem getOrder_assign_of_ne (m : OrderManager) {id id' : String} (managed : ManagedOrder)
    (h : id' ≠ id) : (m.assign id managed).getOrder id' = m.getOrder id' := by
  unfold assign getOrder
  split
  next => rw [find?_replace, if_neg h]
  next => simp [List.find?_append, h.symm]

@[simp] theorem getOrder_trackOrder_self (m : OrderManager) (id : String) (req : OrderRequest) :
    (m.trackOrder id req).getOrder id = some { request := req, result := { status := .pending } } :=
  getOrder_assign_self ..

@[simp] theorem getOrder_trackOrder_of_ne (m : OrderManager) {id id' : String} (req : OrderRequest)
    (h : id' ≠ id) : (m.trackOrder id req).getOrder id' = m.getOrder id' :=
  getOrder_assign_of_ne m _ h

@[simp] theorem getOrder_updateOrder_self (m : OrderManager) (id : String) (result : OrderResult) :
    (m.updateOrder id result).getOrder id =
      (m.getOrder id).map fun managed => { managed with result } := by
  simp only [getOrder, updateOrder, find?_replace, if_true]

@[simp] theorem getOrder_updateOrder_of_ne (m : OrderManager) {id id' : String} (result : OrderResult)
    (h : id' ≠ id) : (m.updateOrder id result).getOrder id' = m.getOrder id' := by
  simp only [getOrder, updateOrder, find?_replace, if_neg h]

end OrderManager

end CryptoArbBot
