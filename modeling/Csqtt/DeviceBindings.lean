import Csqtt.DatabaseHistory

/-!
# Passwords in the rows of the devices

The first part says when every password that a device row names still exists: as long as the main
password is not changed while a device is bound to it. The second part is about devices whose
password was taken away: the next active credential that asks for such a device gets it.
-/

namespace Csqtt
namespace Database

/-! ## Passwords that no longer exist -/

def Known (db : Database) (password : Text) : Prop :=
  password = [] ∨ password = db.mainPassword ∨ (db.passwords.lookup password).isSome = true

def NoDangling (db : Database) : Prop :=
  ∀ deviceId device, db.devices.lookup deviceId = some device → db.Known device.boundPassword

instance (db : Database) (password : Text) : Decidable (db.Known password) :=
  inferInstanceAs (Decidable (_ ∨ _ ∨ _))

instance (db : Database) : Decidable db.NoDangling :=
  decidable_of_iff _ (AList.forall_lookup_iff (p := fun _ (device : ClientDevice) =>
    db.Known device.boundPassword)).symm

variable {db db' : Database} {password deviceId : Text}

theorem Known.mono (hm : db'.mainPassword = db.mainPassword)
    (hp : ∀ password, (db.passwords.lookup password).isSome = true →
      (db'.passwords.lookup password).isSome = true) (h : db.Known password) :
    db'.Known password := by
  obtain h | h | h := h
  · exact .inl h
  · exact .inr (.inl (h.trans hm.symm))
  · exact .inr (.inr (hp password h))

theorem isSome_insert {passwords : AList fun _ : Text => PasswordEntry}
    (key : Text) (entry : PasswordEntry) (h : (passwords.lookup password).isSome = true) :
    ((passwords.insert key entry).lookup password).isSome = true := by
  by_cases heq : password = key
  · rw [heq, AList.lookup_insert]
    rfl
  · rwa [AList.lookup_insert_ne heq]

theorem NoDangling.mono (h : db.NoDangling)
    (hdevs : db'.devices = db.devices) (hm : db'.mainPassword = db.mainPassword)
    (hp : ∀ password, (db.passwords.lookup password).isSome = true →
      (db'.passwords.lookup password).isSome = true) : db'.NoDangling := by
  intro deviceId device hd
  rw [hdevs] at hd
  exact (h deviceId device hd).mono hm hp

theorem noDangling_prune (db : Database) : db.pruneDanglingDeviceBindings.NoDangling := by
  intro deviceId device hd
  rw [pruneDanglingDeviceBindings, AList.lookup_mapValues] at hd
  obtain ⟨old, -, rfl⟩ := Option.map_eq_some_iff.mp hd
  split_ifs with h
  · exact h
  · exact .inl rfl

theorem noDangling_clear (h : ∀ deviceId device, db.devices.lookup deviceId = some device →
      device.boundPassword ≠ password → db.Known device.boundPassword) :
    (db.clearDeviceBinding password).NoDangling := by
  intro deviceId device hd
  rw [clearDeviceBinding, AList.lookup_mapValues] at hd
  obtain ⟨old, ho, rfl⟩ := Option.map_eq_some_iff.mp hd
  split_ifs with hb
  · exact .inl rfl
  · exact h deviceId old ho hb

section

variable (h : db.NoDangling)
include h

theorem noDangling_updateEntry (password : Text) (f : PasswordEntry → PasswordEntry) :
    (db.updateEntry password f).1.NoDangling := by
  unfold updateEntry
  split
  · exact h
  · exact h.mono rfl rfl fun _ hs => isSome_insert password _ hs

theorem noDangling_clientsCreate (now : ℤ) (random : List Bytes) (request : CreateClientRequest) :
    (db.clientsCreate now random request).1.NoDangling := by
  have hr : (db.retainUnexpired now).NoDangling := noDangling_prune _
  unfold clientsCreate
  split
  · exact h
  · dsimp only
    split_ifs
    · exact hr
    · split
      · exact hr
      · exact hr.mono rfl rfl fun _ hs => isSome_insert _ _ hs

theorem noDangling_clientUnbind (password : Text) : (db.clientUnbind password).1.NoDangling := by
  have he := noDangling_updateEntry h password fun entry => { entry with deviceId := [] }
  unfold clientUnbind
  split_ifs
  · exact noDangling_clear fun deviceId device hd _ => h deviceId device hd
  · split
    · rename_i heq
      rw [heq] at he
      exact he
    · rename_i heq
      rw [heq] at he
      exact noDangling_clear fun deviceId device hd _ => he deviceId device hd

theorem noDangling_erase (password : Text) :
    (clearDeviceBinding { db with passwords := db.passwords.erase password }
      password).NoDangling := by
  refine noDangling_clear fun deviceId device hd hne => ?_
  obtain hk | hk | hk := h deviceId device hd
  · exact .inl hk
  · exact .inr (.inl hk)
  · refine .inr (.inr ?_)
    rwa [AList.lookup_erase_ne hne]

end

variable {r : GetconfRequest} {now : ℤ}

theorem noDangling_admitted {net : Subnet} (h : db.NoDangling) {access : CredentialAccess}
    (hacc : db.getconfCredentialAccess now r.password r.identity.deviceId = .ok access) :
    (db.admitted net r access).1.NoDangling := by
  have hchanges := db.changesOnly_admitted net r access
  have hpass : ∀ password, (db.passwords.lookup password).isSome = true →
      ((db.admitted net r access).1.passwords.lookup password).isSome = true := by
    intro password hsome
    by_cases heq : password = r.password
    · rw [heq] at hsome ⊢
      obtain hkept | ⟨entry, -, -, hset⟩ := hchanges.credential
      · rwa [hkept]
      · rw [hset]
        rfl
    · rwa [hchanges.passwords password heq]
  have hreq : db.Known r.password := by
    obtain ⟨-, hmain⟩ | ⟨entry, hentry, -, -⟩ := (permits_of_access hacc).credential
    · exact .inr (.inl hmain)
    · exact .inr (.inr (by rw [hentry]; rfl))
  intro deviceId device hdev
  refine Known.mono hchanges.mainPassword hpass ?_
  obtain ⟨hdevices, -⟩ | ⟨written, hbound, hdevices, -⟩ := db.row_admitted net r access
  · rw [hdevices] at hdev
    exact h deviceId device hdev
  · rw [hdevices] at hdev
    by_cases hd : deviceId = r.identity.deviceId
    · rw [hd, AList.lookup_insert] at hdev
      cases hdev
      rw [hbound]
      exact hreq
    · rw [AList.lookup_insert_ne hd] at hdev
      exact h deviceId device hdev

/-- The main password may be replaced: no device is bound to it, or a client has the same password.
-/
def MainReplaceable (db : Database) : Prop :=
  ∀ deviceId device, db.devices.lookup deviceId = some device →
    device.boundPassword = db.mainPassword →
    db.mainPassword = [] ∨ (db.passwords.lookup db.mainPassword).isSome = true

instance (db : Database) : Decidable db.MainReplaceable :=
  decidable_of_iff _ (AList.forall_lookup_iff (p := fun _ (device : ClientDevice) =>
    device.boundPassword = db.mainPassword →
      db.mainPassword = [] ∨ (db.passwords.lookup db.mainPassword).isSome = true)).symm

/-- The panel changes the main password only while it may be replaced. -/
def SettingsSafe (db : Database) : DatabaseOp → Prop
  | .settings request => ∀ change password, request.check = .ok change →
      change.mainPassword = some password → db.mainPassword ≠ password → db.MainReplaceable
  | _ => True

theorem noDangling_settings_iff (h : db.NoDangling)
    (hdevs : db'.devices = db.devices) (hp : db'.passwords = db.passwords)
    (hne : db.mainPassword ≠ db'.mainPassword) : NoDangling db' ↔ db.MainReplaceable := by
  unfold NoDangling Known
  rw [hdevs, hp]
  constructor
  · intro ha deviceId device hd hb
    obtain hk | hk | hk := ha deviceId device hd
    · exact .inl (hb ▸ hk)
    · exact absurd (hb.symm.trans hk) hne
    · exact .inr (hb ▸ hk)
  · intro hr deviceId device hd
    obtain hk | hk | hk := h deviceId device hd
    · exact .inl hk
    · obtain he | hs := hr deviceId device hd hk
      · exact .inl (hk.trans he)
      · exact .inr (.inr (hk ▸ hs))
    · exact .inr (.inr hk)

theorem noDangling_settingsPost_iff (h : db.NoDangling) (request : SettingsRequest) :
    (db.settingsPost request).NoDangling ↔ db.SettingsSafe (.settings request) := by
  rw [settingsPost, SettingsSafe]
  cases hc : request.check with
  | error =>
    refine iff_of_true h fun change password heq => ?_
    cases heq
  | ok change =>
    by_cases hne : db.mainPassword ≠ change.mainPassword.getD db.mainPassword
    · rw [show (db.settings change).1.NoDangling ↔ db.MainReplaceable from
        noDangling_settings_iff h rfl rfl hne]
      refine ⟨fun hr _ _ _ _ _ => hr, fun hs => ?_⟩
      cases hp : change.mainPassword with
      | none =>
        rw [hp] at hne
        exact absurd rfl hne
      | some password =>
        rw [hp] at hne
        exact hs change password rfl hp hne
    · have hsame : (db.settings change).1.mainPassword = db.mainPassword := (not_not.mp hne).symm
      have hk : (db.settings change).1.NoDangling := by
        unfold NoDangling Known
        rw [hsame]
        exact h
      refine iff_of_true hk fun change' password heq hsome hn' => ?_
      cases heq
      rw [hsome] at hne
      exact absurd hn' hne

variable (net : Subnet)

theorem noDangling_apply_iff (h : db.NoDangling) (op : DatabaseOp) :
    (db.apply net op).NoDangling ↔ db.SettingsSafe op := by
  cases op with
  | settings request => exact noDangling_settingsPost_iff h request
  | clientsCreate now random request =>
    exact iff_of_true (noDangling_clientsCreate h now random request) trivial
  | clientUpdate _ password =>
    refine iff_of_true ?_ trivial
    rw [apply, clientUpdate]
    split
    · exact h
    · exact noDangling_updateEntry h password _
  | clientToggle password => exact iff_of_true (noDangling_updateEntry h password _) trivial
  | clientUnbind password => exact iff_of_true (noDangling_clientUnbind h password) trivial
  | clientDelete password =>
    refine iff_of_true ?_ trivial
    rw [apply, clientDelete]
    split
    · exact h
    · exact noDangling_erase h password
  | expire _ password =>
    refine iff_of_true ?_ trivial
    rw [apply, expire]
    split_ifs
    · exact noDangling_erase h password
    · exact h
  | getconf now epoch r =>
    refine iff_of_true ?_ trivial
    rw [apply]
    obtain ⟨hdb, -⟩ | ⟨access, hacc, hdb, -⟩ := db.getconf_cases net epoch now r
    · rw [hdb]
      exact h
    · rw [hdb]
      exact noDangling_admitted h hacc

/-- Along a history, no device is bound to a password that is gone exactly if the main password was
changed only while no device depended on it. -/
theorem no_dangling_bindings_iff (net : Subnet) (db : Database) (h : db.NoDangling)
    (history : List DatabaseOp) : Runs.Always (apply net) NoDangling db history ↔
      Runs.Along (apply net) SettingsSafe db history :=
  Runs.always_iff_along (I := fun _ => True) (Q := fun _ _ => True) (fun _ _ _ _ => trivial)
    (fun _ op _ hdb _ => noDangling_apply_iff net hdb op) trivial h
    (Runs.along_of_forall fun _ _ => trivial)

/-- A phone that was configured with the main password, and a client that has not been used. -/
def ownersPhone : Database where
  mainPassword := "owner".toList
  mainDeviceId := "phone".toList
  passwords := AList.singleton "guest".toList {}
  devices := AList.singleton "phone".toList
    { deviceId := "phone".toList, ip := "10.66.67.2".toList, boundPassword := "owner".toList,
      lastSessionSalt := "salt".toList, lastGenerationId := 1 }

/-- After the phone is unbound the main password can be changed. -/
theorem no_dangling_bindings_unbound : Runs.Always (apply (10, 66, 67)) NoDangling ownersPhone
      [.clientUnbind "owner".toList, .settings { mainPassword := some "renamed".toList }] :=
  (no_dangling_bindings_iff (10, 66, 67) ownersPhone (by decide +kernel) _).mpr
    ⟨trivial, fun _ _ _ _ _ => by decide +kernel, trivial⟩

/-- The main password is changed while the phone is bound to it: the phone can be configured neither
with the new password nor with the old one. -/
theorem main_password_change_dangles : ownersPhone.NoDangling ∧ ¬ (ownersPhone.apply (10, 66, 67)
        (.settings { mainPassword := some "renamed".toList })).NoDangling ∧
      (ownersPhone.apply (10, 66, 67)
        (.settings { mainPassword := some "renamed".toList })).getconfCredentialAccess 0
          "renamed".toList "phone".toList = .error .deviceMismatch ∧
      (ownersPhone.apply (10, 66, 67)
        (.settings { mainPassword := some "renamed".toList })).getconfCredentialAccess 0
          "owner".toList "phone".toList = .error .expired := by
  decide +kernel

/-! ## Devices whose password was taken away -/

variable {device : ClientDevice}

theorem row_run (db : Database) (history : List DatabaseOp)
    (hd : db.devices.lookup deviceId = some device) :
    ∃ device', (history.foldl (apply net) db).devices.lookup deviceId = some device' ∧
      device'.ip = device.ip := by
  induction history generalizing db device with
  | nil => exact ⟨device, hd, rfl⟩
  | cons op _ ih =>
    obtain ⟨device', hd', hip⟩ := db.row_apply net op hd
    obtain ⟨device'', hd'', hi'⟩ := ih (db.apply net op) hd'
    exact ⟨device'', hd'', hi'.trans hip⟩

/-- The operation takes the password away from the device because it was deleted, has expired or was
unbound. -/
def Orphans (net : Subnet) (db : Database) (op : DatabaseOp) (password deviceId : Text) : Prop :=
  (op = .clientDelete password ∨ op = .clientUnbind password ∨ ∃ now, op = .expire now password) ∧
    password ≠ [] ∧
    (∃ device, db.devices.lookup deviceId = some device ∧ device.boundPassword = password) ∧
    ∃ device, (db.apply net op).devices.lookup deviceId = some device ∧ device.boundPassword = []

/-- The request binds its device to its password, which it was not bound to. -/
def Rebinds (net : Subnet) (db : Database) (epoch : DeviceEpochState) (now : ℤ)
    (r : GetconfRequest) : Prop :=
  ∃ device device', db.devices.lookup r.identity.deviceId = some device ∧
    (db.getconf net epoch now r).db.devices.lookup r.identity.deviceId = some device' ∧
    device.boundPassword ≠ r.password ∧ device'.boundPassword = r.password

def ActiveClient (db : Database) (now : ℤ) (password : Text) : Prop :=
  ∃ entry, db.passwords.lookup password = some entry ∧ entry.isDeactivated = false ∧
    isExpired now entry = false

theorem access_of_activeClient (ha : db.ActiveClient now password)
    (hd : db.devices.lookup deviceId = some device) (hu : device.boundPassword = []) :
    ∃ access, db.getconfCredentialAccess now password deviceId = .ok access := by
  obtain ⟨entry, he, hacc, hlive⟩ := ha
  unfold getconfCredentialAccess
  rw [hd, he]
  dsimp only
  rw [Option.any_some, hlive, hacc, hu]
  simp only [ne_eq, not_true_eq_false, false_and, decide_false, Bool.false_eq_true, if_false]
  split_ifs
  · exact ⟨_, rfl⟩
  · exact ⟨_, rfl⟩
  · exact ⟨_, rfl⟩

/-- A device without a password goes to whichever active credential asks for it. -/
theorem rebinds_of_activeClient (ha : db.ActiveClient now r.password)
    (hd : db.devices.lookup r.identity.deviceId = some device) (hu : device.boundPassword = [])
    (hp : r.password ≠ []) {epoch : DeviceEpochState}
    (he : (epoch.admitEpoch r.identity.generationId r.identity.sessionSalt).2.isAccepted = true) :
    db.Rebinds net epoch now r := by
  obtain ⟨access, hacc⟩ := access_of_activeClient ha hd hu
  obtain ⟨-, hn⟩ | ⟨written, hb, hdevs, -⟩ := db.row_admitted net r access
  · rw [hd] at hn
    cases hn
  · refine ⟨device, written, hd, ?_, ?_, hb⟩
    · rw [getconf_of_accepted hacc he, hdevs, AList.lookup_insert]
    · rw [hu]
      exact hp.symm

/-- Only an active client or the main password can bind a device, and only if it is not bound. -/
theorem Rebinds.active {net : Subnet} {epoch : DeviceEpochState} (h : db.Rebinds net epoch now r) :
    (∃ device, db.devices.lookup r.identity.deviceId = some device ∧ device.boundPassword = []) ∧
      r.password ≠ [] ∧ (r.password = db.mainPassword ∨ db.ActiveClient now r.password) := by
  obtain ⟨device, device', hd, hd', hb, ha⟩ := h
  obtain ⟨hdb, -⟩ | ⟨access, hacc, -⟩ := db.getconf_cases net epoch now r
  · rw [hdb, hd] at hd'
    cases hd'
    exact absurd ha hb
  · have hp := permits_of_access hacc
    have hu := (hp.device device hd).resolve_right hb
    refine ⟨⟨device, hd, hu⟩, fun he => hb (hu.trans he.symm), ?_⟩
    obtain ⟨-, hm⟩ | ⟨entry, hentry, hactive, hexp⟩ := hp.credential
    · exact .inl hm
    · refine .inr ⟨entry, hentry, hactive, ?_⟩
      simp only [isExpired, Bool.and_eq_false_iff, decide_eq_false_iff_not, not_not, not_lt]
      exact hexp

/-- After a password was taken away from a device, no other client can bind the device to itself
exactly if the device has been bound again meanwhile or no other client is active. -/
theorem orphan_not_captured_iff (net : Subnet) (db : Database) (history : List DatabaseOp)
    (password deviceId : Text) (k j : ℕ) (op : DatabaseOp) (hkj : k < j)
    (hk : history[k]? = some op)
    (horphans : ((history.take k).foldl (apply net) db).Orphans net op password deviceId)
    (now : ℤ) :
    (∀ (epoch : DeviceEpochState) (r : GetconfRequest), r.identity.deviceId = deviceId →
      r.password ≠ password → r.password ≠ ((history.take j).foldl (apply net) db).mainPassword →
      ¬ ((history.take j).foldl (apply net) db).Rebinds net epoch now r) ↔
    (∃ device, ((history.take j).foldl (apply net) db).devices.lookup deviceId = some device ∧
      device.boundPassword ≠ []) ∨ ∀ other, other ≠ [] → other ≠ password →
      other ≠ ((history.take j).foldl (apply net) db).mainPassword →
      ¬ ((history.take j).foldl (apply net) db).ActiveClient now other := by
  have hrow : ∃ device, ((history.take j).foldl (apply net) db).devices.lookup deviceId =
      some device := by
    obtain ⟨-, -, -, device, hdev, -⟩ := horphans
    obtain ⟨device', hdev', -⟩ := row_run net _ ((history.take j).drop (k + 1)) hdev
    refine ⟨device', ?_⟩
    rw [Runs.foldl_take (show k + 1 ≤ j from hkj), Runs.foldl_take_succ hk]
    exact hdev'
  generalize (history.take j).foldl (apply net) db = state at hrow ⊢
  obtain ⟨device, hdev⟩ := hrow
  constructor
  · intro hsafe
    by_cases hbound : device.boundPassword = []
    · refine .inr fun other hnonempty hne hmain hact => ?_
      exact hsafe {} ⟨[], other, ⟨deviceId, 1, []⟩, 1, 1⟩ rfl hne hmain
        (rebinds_of_activeClient net hact hdev hbound hnonempty rfl)
    · exact .inl ⟨device, hdev, hbound⟩
  · rintro hcond epoch r rfl hne hmain hrebind
    obtain ⟨⟨device', hdev', hunbind⟩, hnonempty, hcred⟩ := hrebind.active
    obtain ⟨other, hother, hbound⟩ | hinactive := hcond
    · rw [hother] at hdev'
      cases hdev'
      exact hbound hunbind
    · exact hinactive r.password hnonempty hne hmain (hcred.resolve_left hmain)

def guestsPhone (deactivated : Bool) : Database where
  mainPassword := "owner".toList
  passwords := (AList.singleton "bob".toList { isDeactivated := deactivated }).insert "alice".toList
    { deviceId := "phone".toList }
  devices := AList.singleton "phone".toList
    { deviceId := "phone".toList, ip := "10.66.67.2".toList, boundPassword := "alice".toList,
      lastSessionSalt := "salt".toList, lastGenerationId := 1 }

def bobsRequest : GetconfRequest :=
  ⟨"9000".toList, "bob".toList, ⟨"phone".toList, 2, "other".toList⟩, 1, 1⟩

theorem orphans_guestsPhone (deactivated : Bool) :
    (guestsPhone deactivated).Orphans (10, 66, 67) (.clientDelete "alice".toList) "alice".toList
      "phone".toList := by
  refine ⟨.inl rfl, by decide, ⟨_, rfl, rfl⟩, ?_⟩
  cases deactivated with
  | false | true => exact ⟨_, rfl, rfl⟩

/-- The second client is deactivated and cannot take the phone. -/
theorem orphan_not_captured_deactivated :
    ¬ ((guestsPhone true).apply (10, 66, 67) (.clientDelete "alice".toList)).Rebinds (10, 66, 67)
      ⟨1, "salt".toList⟩ 0 bobsRequest := by
  have hd : ∀ other (entry : PasswordEntry),
      ((guestsPhone true).apply (10, 66, 67) (.clientDelete "alice".toList)).passwords.lookup
      other =
        some entry → entry.isDeactivated = true :=
    AList.forall_lookup_iff.mpr (by decide +kernel)
  refine (orphan_not_captured_iff (10, 66, 67) (guestsPhone true) [.clientDelete "alice".toList]
    "alice".toList "phone".toList 0 1 _ (by decide) rfl (orphans_guestsPhone true) 0).mpr (.inr ?_)
    ⟨1, "salt".toList⟩ bobsRequest rfl (by decide) (by decide +kernel)
  rintro other - - - ⟨entry, he, ha, -⟩
  rw [hd other entry he] at ha
  cases ha

/-- The first client is deleted, and the second client takes its phone. -/
theorem orphan_captured :
    (guestsPhone false).Orphans (10, 66, 67) (.clientDelete "alice".toList) "alice".toList
        "phone".toList ∧
      bobsRequest.password ≠ "alice".toList ∧ bobsRequest.password ≠ "owner".toList ∧
      ((guestsPhone false).apply (10, 66, 67) (.clientDelete "alice".toList)).Rebinds (10, 66, 67)
        ⟨1, "salt".toList⟩ 0 bobsRequest := by
  refine ⟨orphans_guestsPhone false, by decide, by decide, ?_⟩
  exact ⟨_, _, rfl, rfl, by decide +kernel, by decide +kernel⟩

end Database
end Csqtt
