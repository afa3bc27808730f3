import Csqtt.ServerPanel

/-!
# The text of a GETCONF

The client joins the fields of its request with bars; the server splits the text at the bars and
trims the parts. A main password that the panel takes arrives unchanged if it has no bar and no
white space at its ends, and only then. The other fields have bounds of their own on the server.
-/

namespace Csqtt

def configRequest (localPort deviceId password : Text) (generationId : ℕ) (salt : Text)
    (workerId desiredCount : ℕ) : Text :=
  "GETCONF:".toList ++ localPort ++ '|' :: deviceId ++ '|' :: password ++
    '|' :: Text.ofNat generationId ++ '|' :: salt ++ '|' :: Text.ofNat workerId ++
    '|' :: Text.ofNat desiredCount

/-- The fields behind the password. -/
def requestTail (generationId : ℕ) (salt : Text) (workerId desiredCount : ℕ) : Text :=
  Text.ofNat generationId ++ '|' :: (salt ++ '|' :: (Text.ofNat workerId ++
    '|' :: Text.ofNat desiredCount))

def requestFields (localPort deviceId password tail : Text) : Text :=
  localPort ++ '|' :: (deviceId ++ '|' :: (password ++ '|' :: tail))

theorem configRequest_eq (localPort deviceId password : Text) (generationId : ℕ) (salt : Text)
    (workerId desiredCount : ℕ) :
    configRequest localPort deviceId password generationId salt workerId desiredCount =
      "GETCONF:".toList ++ requestFields localPort deviceId password
        (requestTail generationId salt workerId desiredCount) := by
  unfold configRequest requestFields requestTail
  generalize "GETCONF:".toList = start
  simp only [List.append_assoc, List.cons_append]

section Parts

variable {port generationId workerId desiredCount : ℕ} {deviceId password salt : Text}

theorem trim_requestFields : Text.trim (requestFields (Text.ofNat port) deviceId password
      (requestTail generationId salt workerId desiredCount)) =
    requestFields (Text.ofNat port) deviceId password
      (requestTail generationId salt workerId desiredCount) := by
  have hp : 0 < (Text.ofNat port).length := List.length_pos_iff.mpr Nat.toDigits_ne_nil
  have hd : Text.ofNat desiredCount ≠ [] := Nat.toDigits_ne_nil
  rw [Text.trim_eq_self_iff]
  constructor
  · intro h
    have hf := (Text.trimmed_ofNat port).1 hp
    simp only [requestFields, List.getElem_append_left hp]
    exact hf
  · intro h
    have hl := (Text.trimmed_ofNat desiredCount).2 hd
    simp only [requestFields, requestTail, List.getLast_append_of_ne_nil, List.getLast_cons, ne_eq,
      List.append_eq_nil_iff, reduceCtorEq, and_false, not_false_eq_true, hd]
    exact hl

theorem splitn_requestFields (hd : '|' ∉ deviceId) (n : ℕ) (tail : Text) :
    Text.splitn (n + 4) '|' (requestFields (Text.ofNat port) deviceId password tail) =
      Text.ofNat port :: deviceId :: Text.splitn (n + 2) '|' (password ++ '|' :: tail) := by
  rw [requestFields, Text.splitn_append (Text.not_mem_ofNat (by decide) port),
    Text.splitn_append hd]

theorem splitn_requestTail (hs : '|' ∉ salt) :
    Text.splitn 4 '|' (requestTail generationId salt workerId desiredCount) =
      [Text.ofNat generationId, salt, Text.ofNat workerId, Text.ofNat desiredCount] := by
  rw [requestTail, Text.splitn_append (Text.not_mem_ofNat (by decide) generationId),
    Text.splitn_append hs, Text.splitn_append (Text.not_mem_ofNat (by decide) workerId),
    Text.splitn_of_not_mem (Text.not_mem_ofNat (by decide) desiredCount)]

end Parts

def getconfParts (text : Text) : List Text :=
  Text.splitn 7 '|' (Text.trim ((Text.stripStart "GETCONF:".toList text).getD []))

theorem parseGetconf_ok_iff {sessionPassword text : Text} {r : GetconfRequest} :
    parseGetconf sessionPassword text = .ok r ↔
      Text.trim ((getconfParts text)[0]?.getD "9000".toList) = r.clientPort ∧
      (Text.parseUnsigned 65536 r.clientPort).isSome = true ∧
      Text.trim ((getconfParts text)[1]?.getD "unknown".toList) = r.identity.deviceId ∧
      r.identity.deviceId ≠ [] ∧ Text.utf8Len r.identity.deviceId ≤ 128 ∧
      Text.trim ((getconfParts text)[2]?.getD []) = r.password ∧ r.password = sessionPassword ∧
      parseGenerationId (Text.trim ((getconfParts text)[3]?.getD [])) =
        some r.identity.generationId ∧
      Text.trim ((getconfParts text)[4]?.getD []) = r.identity.sessionSalt ∧
      Text.utf8Len r.identity.sessionSalt ≤ 128 ∧
      parseWorker (Text.trim ((getconfParts text)[5]?.getD [])) = some r.workerId ∧
      parseDesired r.workerId (Text.trim ((getconfParts text)[6]?.getD [])) =
        some r.desiredCount := by
  unfold parseGetconf
  dsimp only
  rw [← getconfParts]
  generalize getconfParts text = parts
  constructor
  · intro h
    split at h
    · cases h
    · rename_i generationId hgen
      split_ifs at h with hpass hdev hport hsalt
      split at h
      · cases h
      · rename_i workerId hwork
        split at h
        · cases h
        · rename_i desiredCount hdesired
          cases h
          simp only [Bool.or_eq_true, List.isEmpty_iff, decide_eq_true_eq, not_or, not_lt] at hdev
          refine ⟨rfl, ?_, rfl, hdev.1, hdev.2, rfl, not_ne_iff.mp hpass, hgen, rfl,
            not_lt.mp hsalt, hwork, hdesired⟩
          rw [Option.isSome_iff_ne_none]
          simpa using hport
  · obtain ⟨clientPort, password, ⟨deviceId, generationId, sessionSalt⟩, workerId, desiredCount⟩ :=
      r
    rintro ⟨hclient, hport, hdeviceId, hdev, hlen, hpass, hsession, hgen,
      hsessionSalt, hsalt, hwork, hdesired⟩
    have hdev' : (deviceId.isEmpty || decide (128 < Text.utf8Len deviceId)) = false := by
      rw [List.isEmpty_eq_false_iff.mpr hdev, decide_eq_false (not_lt.mpr hlen)]
      rfl
    rw [hclient, hdeviceId, hpass, hgen, hsessionSalt, hwork]
    dsimp only
    rw [hdesired, if_neg (not_not.mpr hsession), hdev', Option.isNone_eq_false_iff.mpr hport,
      if_neg (not_lt.mpr hsalt)]
    rfl

theorem isSome_of_parseGenerationId {part : Option Text} {generationId : ℕ}
    (h : parseGenerationId (Text.trim (part.getD [])) = some generationId) : part.isSome := by
  cases part with
  | none =>
    have hn : parseGenerationId (Text.trim []) = none := by decide
    cases hn.symm.trans h
  | some => rfl

/-- What the control plane reads as a request names the identity that the engine read. -/
theorem parseGetconfEpoch_of_parseGetconf {payload : Bytes} {sessionPassword text : Text}
    {r : GetconfRequest} (htext : Text.ofUtf8 payload = some text)
    (h : parseGetconf sessionPassword text = .ok r) :
    parseGetconfEpoch payload = some r.identity := by
  obtain ⟨-, -, hdev, hnonempty, hdeviceLength, -, -, hgen, hsalt, hsaltLength, -, -⟩ :=
    parseGetconf_ok_iff.mp h
  have hfour := isSome_of_parseGenerationId hgen
  cases hcontent : Text.stripStart "GETCONF:".toList text with
  | none =>
    rw [getconfParts, hcontent] at hfour
    exact absurd hfour (by decide)
  | some content =>
    have hpart : ∀ i < 5, (Text.splitn 6 '|' (Text.trim content))[i]? =
        (getconfParts text)[i]? := by
      intro i hi
      rw [getconfParts, hcontent]
      exact (Text.splitn_getElem?_succ '|' hi _).symm
    generalize getconfParts text = parts at hdev hgen hsalt hfour hpart
    have hlen : 3 < parts.length := by simpa using hfour
    have hget : ∀ i ≤ 3, parts[i]? = some (parts[i]?.getD []) := by
      intro i hi
      rw [List.getElem?_eq_getElem (show i < parts.length by omega), Option.getD_some]
    rw [hget 1 (by decide), Option.getD_some] at hdev
    unfold parseGetconfEpoch
    simp only [htext, hcontent, hpart 0 (by decide), hpart 1 (by decide), hpart 2 (by decide),
      hpart 3 (by decide), hpart 4 (by decide), Option.bind_eq_bind, Option.bind_some]
    rw [hget 0 (by decide), hget 1 (by decide), hget 2 (by decide), hget 3 (by decide)]
    simp only [Option.bind_some, hgen, hdev, hsalt]
    rw [if_neg]
    simp only [Bool.or_eq_true, List.isEmpty_iff, decide_eq_true_eq, not_or, not_lt]
    exact ⟨⟨hnonempty, hdeviceLength⟩, hsaltLength⟩

/-- The fields that the server takes as they are. -/
structure ReadAsSent (deviceId password salt : Text) (workerId desiredCount : ℕ) : Prop where
  password : '|' ∉ password ∧ password.Trimmed
  device : deviceId ≠ [] ∧ Text.utf8Len deviceId ≤ 128 ∧ deviceId.Trimmed
  salt : Text.utf8Len salt ≤ 128 ∧ salt.Trimmed
  worker : 1 ≤ workerId ∧ workerId ≤ desiredCount ∧ desiredCount ≤ maxStreamWorkers

variable {n : ℕ}

theorem parseWorker_ofNat {m : ℕ} :
    parseWorker (Text.ofNat n) = some m ↔ m = n ∧ 1 ≤ n ∧ n ≤ maxStreamWorkers := by
  rw [parseWorker, Text.parseUnsigned_ofNat, Option.filter_eq_some_iff]
  simp only [Bool.and_eq_true, decide_eq_true_eq]
  constructor
  · rintro ⟨hv, hb⟩
    split_ifs at hv
    cases hv
    exact ⟨rfl, hb⟩
  · rintro ⟨rfl, hl, hu⟩
    rw [if_pos (hu.trans_lt (by decide))]
    exact ⟨rfl, hl, hu⟩

theorem parseDesired_ofNat {workerId m : ℕ} : parseDesired workerId (Text.ofNat n) = some m ↔
      m = n ∧ (1 ≤ n ∧ n ≤ maxStreamWorkers) ∧ workerId ≤ n := by
  have he : (Text.ofNat n).isEmpty = false := List.isEmpty_eq_false_iff.mpr Nat.toDigits_ne_nil
  rw [parseDesired, he, if_neg Bool.false_ne_true, Option.filter_eq_some_iff, parseWorker_ofNat]
  constructor
  · rintro ⟨⟨rfl, hb⟩, hle⟩
    exact ⟨rfl, hb, of_decide_eq_true hle⟩
  · rintro ⟨rfl, hb, hle⟩
    exact ⟨⟨rfl, hb⟩, decide_eq_true hle⟩

theorem parseGenerationId_ofNat (h : n < 2 ^ 64) : parseGenerationId (Text.ofNat n) = some n := by
  rw [parseGenerationId, Text.decimal_ofNat, Option.filter_eq_some_iff]
  exact ⟨rfl, decide_eq_true h⟩

section Carry

variable {port generationId workerId desiredCount : ℕ} {deviceId password salt : Text}

theorem getconfParts_configRequest (hd : '|' ∉ deviceId) :
    getconfParts (configRequest (Text.ofNat port) deviceId password generationId salt workerId
      desiredCount) = Text.ofNat port :: deviceId :: Text.splitn 5 '|'
        (password ++ '|' :: requestTail generationId salt workerId desiredCount) := by
  rw [getconfParts, configRequest_eq, Text.stripStart_append, Option.getD_some, trim_requestFields,
    splitn_requestFields hd]

theorem getconfParts_of_not_mem (hd : '|' ∉ deviceId) (hs : '|' ∉ salt)
    (hp : '|' ∉ password) :
    getconfParts (configRequest (Text.ofNat port) deviceId password generationId salt workerId
      desiredCount) = [Text.ofNat port, deviceId, password, Text.ofNat generationId, salt,
        Text.ofNat workerId, Text.ofNat desiredCount] := by
  rw [getconfParts_configRequest hd, Text.splitn_append hp, splitn_requestTail hs]

/-- The request as the client means it. -/
def requested (port : ℕ) (deviceId password : Text) (generationId : ℕ) (salt : Text)
    (workerId desiredCount : ℕ) : GetconfRequest :=
  ⟨Text.ofNat port, password, ⟨deviceId, generationId, salt⟩, workerId, desiredCount⟩

theorem parseGetconf_configRequest (hport : port < 65536) (hgen : generationId < 2 ^ 64)
    (hdev : '|' ∉ deviceId) (hsalt : '|' ∉ salt) :
    parseGetconf password (configRequest (Text.ofNat port) deviceId password generationId salt
        workerId desiredCount) =
      .ok (requested port deviceId password generationId salt workerId desiredCount) ↔
    ReadAsSent deviceId password salt workerId desiredCount := by
  rw [parseGetconf_ok_iff]
  constructor
  · rintro ⟨-, -, hdeviceId, hnonempty, hdeviceLength, hpass, -, -, hsaltTrim, hsaltLength, hwork,
      hdesired⟩
    have hkept : '|' ∉ password ∧ password.Trimmed := by
      rw [getconfParts_configRequest hdev] at hpass
      simp only [List.getElem?_cons_succ, ← List.head?_eq_getElem?, Text.splitn_head,
        Option.getD_some]
        at hpass
      exact Text.trim_takeWhile_eq_iff.mp hpass
    rw [getconfParts_of_not_mem hdev hsalt hkept.1] at hdeviceId hsaltTrim hwork hdesired
    have hw := parseWorker_ofNat.mp
      ((congrArg parseWorker (Text.trim_ofNat workerId)).symm.trans hwork)
    have hd := parseDesired_ofNat.mp
      ((congrArg (parseDesired workerId) (Text.trim_ofNat desiredCount)).symm.trans hdesired)
    exact ⟨hkept, ⟨hnonempty, hdeviceLength, Text.trim_eq_self_iff.mp hdeviceId⟩,
      ⟨hsaltLength, Text.trim_eq_self_iff.mp hsaltTrim⟩, hw.2.1, hd.2.2, hd.2.1.2⟩
  · intro h
    obtain ⟨hone, hle, hmax⟩ := h.worker
    rw [getconfParts_of_not_mem hdev hsalt h.password.1]
    refine ⟨Text.trim_ofNat port, ?_, Text.trim_eq_self_iff.mpr h.device.2.2, h.device.1,
      h.device.2.1,
      Text.trim_eq_self_iff.mpr h.password.2, rfl, ?_, Text.trim_eq_self_iff.mpr h.salt.2, h.salt.1,
      ?_, ?_⟩
    · rw [requested, Text.parseUnsigned_ofNat, if_pos hport]
      rfl
    · exact (congrArg parseGenerationId (Text.trim_ofNat generationId)).trans
        (parseGenerationId_ofNat hgen)
    · exact (congrArg parseWorker (Text.trim_ofNat workerId)).trans
        (parseWorker_ofNat.mpr ⟨rfl, hone, hle.trans hmax⟩)
    · exact (congrArg (parseDesired workerId) (Text.trim_ofNat desiredCount)).trans
        (parseDesired_ofNat.mpr ⟨rfl, ⟨hone.trans hle, hmax⟩, hle⟩)

end Carry

/-- The server reads from the text of the client what the client put there exactly if the password
has no bar and no white space at its ends and the other fields keep the server's bounds. -/
theorem config_request_read_iff (port generationId workerId desiredCount : ℕ)
    (deviceId password salt : Text) (hport : port < 65536) (hgeneration : generationId < 2 ^ 64)
    (hdevice : '|' ∉ deviceId) (hsalt : '|' ∉ salt) :
    (parseGetconfEpoch (Text.utf8
      (configRequest (Text.ofNat port) deviceId password generationId salt
        workerId desiredCount)) = some ⟨deviceId, generationId, salt⟩ ∧
      parseGetconf password (configRequest (Text.ofNat port) deviceId password generationId salt
        workerId desiredCount) =
        .ok ⟨Text.ofNat port, password, ⟨deviceId, generationId, salt⟩, workerId, desiredCount⟩) ↔
      ReadAsSent deviceId password salt workerId desiredCount := by
  constructor
  · rintro ⟨-, hp⟩
    exact (parseGetconf_configRequest hport hgeneration hdevice hsalt).mp hp
  · intro h
    have hp := (parseGetconf_configRequest hport hgeneration hdevice hsalt).mpr h
    exact ⟨parseGetconfEpoch_of_parseGetconf (Text.ofUtf8_utf8 _) hp, hp⟩

/-- The default port, one worker of two. -/
theorem config_request_read_default :
    parseGetconf "owner-password".toList (configRequest (Text.ofNat 9000) "phone".toList
        "owner-password".toList 7 "salt".toList 1 2) =
      .ok ⟨Text.ofNat 9000, "owner-password".toList, ⟨"phone".toList, 7, "salt".toList⟩, 1, 2⟩ :=
  ((config_request_read_iff 9000 7 1 2
    "phone".toList "owner-password".toList "salt".toList (by decide)
    (by decide) (by decide) (by decide)).mpr
    ⟨by decide, by decide +kernel, by decide +kernel, by decide⟩).2

/-- Two main passwords that the panel takes and no client can use: one has a bar in it, so that its
second half is read as the generation, and one ends with a space. -/
theorem accepted_password_unusable :
    ({ mainPassword := some "open|sesame".toList } : SettingsRequest).check =
        .ok ⟨some "open|sesame".toList, none, none⟩ ∧
      parseGetconfEpoch (Text.utf8 (configRequest (Text.ofNat 9000) "phone".toList
        "open|sesame".toList 7 "salt".toList 1 2)) = none ∧
      parseGetconf "open|sesame".toList (configRequest (Text.ofNat 9000) "phone".toList
        "open|sesame".toList 7 "salt".toList 1 2) = .error .invalidEpoch ∧
      ({ mainPassword := some "sesame ".toList } : SettingsRequest).check =
        .ok ⟨some "sesame ".toList, none, none⟩ ∧
      parseGetconf "sesame ".toList (configRequest (Text.ofNat 9000) "phone".toList
        "sesame ".toList 7 "salt".toList 1 2) = .error .wrongPassword := by
  decide +kernel

end Csqtt
