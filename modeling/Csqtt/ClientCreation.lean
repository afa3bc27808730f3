import Csqtt.DeviceBindings

/-!
# Refused requests for a new client

The handler drops expired passwords and their bindings before it looks at the
limit. A request that is refused after that point leaves them dropped, although
no snapshot was submitted.
-/

namespace Csqtt
namespace Database

inductive CreateAnswer
  | rejected (e : PanelError)
  | notPersisted
  | created (client : CreatedClient)

/-- The database, the snapshot that was submitted and the answer. The writer
confirms the snapshot in time or it does not. -/
def answerClientsCreate (db : Database) (now : ℤ) (random : List Bytes) (r : CreateClientRequest)
    (persisted : Bool) : Database × Option Database × CreateAnswer :=
  match db.clientsCreate now random r with
  | (db, .error e) => (db, none, .rejected e)
  | (db, .ok client) => (db, some db, if persisted then .created client else .notPersisted)

variable {db : Database} {now : ℤ}

theorem passwords_retainUnexpired (h : db.expiredPasswords now = []) :
    (db.retainUnexpired now).passwords = db.passwords := by
  rw [expiredPasswords, List.map_eq_nil_iff, List.filter_eq_nil_iff] at h
  exact AList.ext (List.filter_eq_self.mpr fun e he => by simpa using h e he)

theorem retainUnexpired_eq_iff :
    db.retainUnexpired now = db ↔ db.expiredPasswords now = [] ∧ db.NoDangling := by
  constructor
  · intro h
    refine ⟨?_, h ▸ noDangling_prune _⟩
    have hentries : (db.passwords.entries.filter fun e => !isExpired now e.2) =
        db.passwords.entries := congrArg (fun db : Database => db.passwords.entries) h
    rw [expiredPasswords, List.map_eq_nil_iff, List.filter_eq_nil_iff]
    intro e he
    simpa using List.filter_eq_self.mp hentries e he
  · rintro ⟨hexp, hb⟩
    have hp : db.passwords.filterValues (fun _ entry => !isExpired now entry) = db.passwords :=
      passwords_retainUnexpired hexp
    have hd : db.pruneDanglingDeviceBindings.devices = db.devices := by
      refine AList.ext ((List.map_congr_left fun e he => ?_).trans (List.map_id _))
      have hk := AList.forall_lookup_iff.mp hb e he
      exact congrArg (Sigma.mk e.1) (if_pos hk)
    unfold retainUnexpired
    rw [hp]
    exact congrArg (fun devices => { db with devices }) hd

theorem clientsCreate_of_refused {random : List Bytes} {r : CreateClientRequest}
    (h : (db.clientsCreate now random r).2.isOk = false) :
    (db.clientsCreate now random r).1 =
      if r.check.isOk = true then db.retainUnexpired now else db := by
  unfold clientsCreate at h ⊢
  cases hc : r.check with
  | error => rfl
  | ok vkHashes =>
    rw [hc] at h
    rw [if_pos (show (Except.ok vkHashes : Except PanelError Text).isOk = true from rfl)]
    dsimp only at h ⊢
    split_ifs at h ⊢
    · rfl
    · split at h
      · rfl
      · cases h

/-- A rejected request submits nothing, and it leaves the database as it was
exactly when its checks failed or nothing had expired or was bound to a missing
password. Only a request that was carried out can fail to be stored, and then
memory is what was submitted. -/
theorem database_of_rejected (db : Database) (now : ℤ) (random : List Bytes)
    (r : CreateClientRequest) (persisted : Bool) :
    match db.answerClientsCreate now random r persisted with
    | (after, submitted, .rejected _) =>
      submitted = none ∧
        (after = db ↔ r.check.isOk = false ∨ db.expiredPasswords now = [] ∧ db.NoDangling)
    | (after, submitted, .notPersisted) => submitted = some after
    | (after, submitted, .created _) => submitted = some after := by
  unfold answerClientsCreate
  rcases hr : db.clientsCreate now random r with ⟨after, e | client⟩
  · have ha := clientsCreate_of_refused (show (db.clientsCreate now random r).2.isOk = false by
      rw [hr]; rfl)
    rw [hr] at ha
    change after = _ at ha
    rw [ha]
    cases hc : r.check.isOk with
    | false => simp
    | true => simpa using retainUnexpired_eq_iff
  · cases persisted <;> rfl

/-- Twenty clients are left when the expired one has gone: the request is refused
and the expired password is missing from memory. -/
theorem database_of_rejected_expired :
    let entry (n : ℕ) : Sigma fun _ : Text => PasswordEntry :=
      ⟨List.replicate n 'a', { expiresAt := if n = 0 then 1 else 0 }⟩
    let db : Database :=
      { passwords := ⟨(List.range 21).map entry, by unfold List.NodupKeys; decide⟩ }
    let result := db.answerClientsCreate 2 [] { name := [], days := 0, hash := [] } true
    result.2.2 = .rejected .limitReached ∧ result.2.1 = none ∧ result.1 ≠ db := by
  refine ⟨rfl, rfl, fun h => ?_⟩
  have hl := congrArg (fun db : Database => db.passwords.entries.length) h
  revert hl
  decide

end Database
end Csqtt
