import Csqtt.AssocMap
import Csqtt.ServerPanel

/-!
# Throttled logins

A table counts the wrong guesses of each source. It is bounded, pruned at every wrong
guess and shared by all sources; an entry counts for 180 seconds from the guess that
made it.
-/

namespace Csqtt

def maxLoginLimits : ℕ := 4096

def maxWebSessions : ℕ := 256

def maxLoginFieldBytes : ℕ := 256

structure LoginRequest where
  user : Text
  pass : Text

/-- What the panel knows, and the hash of a token. -/
structure PanelLogin where
  webUser : Text
  webPass : Text
  hashToken : Text → Text

def base64Value (c : Char) : Option UInt8 :=
  if 'A' ≤ c ∧ c ≤ 'Z' then some (.ofNat (c.toNat - 65))
  else if 'a' ≤ c ∧ c ≤ 'z' then some (.ofNat (c.toNat - 71))
  else if '0' ≤ c ∧ c ≤ '9' then some (.ofNat (c.toNat + 4))
  else if c = '+' then some 62
  else if c = '/' then some 63
  else none

/-- The standard alphabet with padding. Bits that are left over are zero. -/
def base64Decode : Text → Option Bytes
  | [] => some []
  | [a, b, '=', '='] => do
    let (a, b) := (← base64Value a, ← base64Value b)
    if b &&& 15 = 0 then some [a <<< 2 ||| b >>> 4] else none
  | [a, b, c, '='] => do
    let (a, b, c) := (← base64Value a, ← base64Value b, ← base64Value c)
    if c &&& 3 = 0 then some [a <<< 2 ||| b >>> 4, b <<< 4 ||| c >>> 2] else none
  | a :: b :: c :: d :: rest => do
    let (a, b, c, d) := (← base64Value a, ← base64Value b, ← base64Value c, ← base64Value d)
    let bytes ← base64Decode rest
    some ((a <<< 2 ||| b >>> 4) :: (b <<< 4 ||| c >>> 2) :: (c <<< 6 ||| d) :: bytes)
  | _ => none

def caesarShift : UInt8 := 47

/-- A login field as the page sends it, or as it is. -/
def caesarDecode (value : Text) : Text :=
  match value with
  | 'c' :: '1' :: ':' :: rest =>
    ((base64Decode rest).bind fun bytes => Text.ofUtf8 (bytes.map (· - caesarShift))).getD value
  | _ => value

structure LoginState where
  loginLimits : AList fun _ : Text => ℕ × ℤ := ∅
  webSessions : AList fun _ : Text => ℤ := ∅

structure LoginCall where
  source : Text
  now : ℤ
  request : LoginRequest
  token : Text

inductive LoginAnswer
  | badRequest
  | tooManyAttempts
  | tooManySources
  | invalidCredentials
  | tooManySessions
  | ok (token : Text)
  deriving DecidableEq

def recordFailedLogin (limits : AList fun _ : Text => ℕ × ℤ) (source : Text) (now : ℤ) :
    Bool × AList fun _ : Text => ℕ × ℤ :=
  let limits := limits.filterValues fun _ value => now < value.2
  if limits.lookup source = none ∧ maxLoginLimits ≤ limits.entries.length then (false, limits)
  else
    (true, limits.insert source
      (match limits.lookup source with
        | some value =>
          if value.2 ≤ now then (1, now + 180) else (min (value.1 + 1) (2 ^ 32 - 1), value.2)
        | none => (1, now + 180)))

/-- The new table, unless there are too many sessions. -/
def webSessionInsert (panel : PanelLogin) (sessions : AList fun _ : Text => ℤ) (token : Text)
    (now : ℤ) : Bool × AList fun _ : Text => ℤ :=
  let sessions := sessions.filterValues fun _ expiry => now < expiry
  if maxWebSessions ≤ sessions.entries.length then (false, sessions)
  else (true, sessions.insert (panel.hashToken token) (now + 86400))

def login (panel : PanelLogin) (s : LoginState) (call : LoginCall) : LoginState × LoginAnswer :=
  if textFieldRefused call.request.user maxLoginFieldBytes ||
      textFieldRefused call.request.pass maxLoginFieldBytes then (s, .badRequest)
  else if (s.loginLimits.lookup call.source).any fun value => call.now < value.2 && 3 ≤ value.1 then
    (s, .tooManyAttempts)
  else if caesarDecode call.request.user = panel.webUser ∧
      caesarDecode call.request.pass = panel.webPass then
    let inserted := webSessionInsert panel s.webSessions call.token call.now
    (⟨s.loginLimits.erase call.source, inserted.2⟩,
      if inserted.1 then .ok call.token else .tooManySessions)
  else
    let recorded := recordFailedLogin s.loginLimits call.source call.now
    ({ s with loginLimits := recorded.2 },
      if recorded.1 then .invalidCredentials else .tooManySources)

def LoginAnswer.isWrong : LoginAnswer → Bool
  | .tooManySources | .invalidCredentials => true
  | _ => false

/-- The guess was compared with the credentials and is right. -/
def LoginAnswer.isRight : LoginAnswer → Bool
  | .tooManySessions | .ok _ => true
  | _ => false

def answers (panel : PanelLogin) (s : LoginState) : List LoginCall → List (LoginCall × LoginAnswer)
  | [] => []
  | call :: calls => (call, (login panel s call).2) :: answers panel (login panel s call).1 calls

def wrongGuesses (source : Text) (log : List (LoginCall × LoginAnswer)) : ℕ :=
  log.countP fun entry => entry.1.source = source && entry.2.isWrong

variable {panel : PanelLogin} {s : LoginState} {call : LoginCall} {source : Text} {count : ℕ}
  {expiry : ℤ}

theorem lookup_recordFailedLogin (limits : AList fun _ : Text => ℕ × ℤ) (now : ℤ)
    (he : limits.lookup source = some (count, expiry)) (hl : now < expiry) (other : Text) :
    (recordFailedLogin limits other now).2.lookup source =
      some (if other = source then min (count + 1) (2 ^ 32 - 1) else count, expiry) := by
  have hk : (limits.filterValues fun _ value => now < value.2).lookup source =
      some (count, expiry) := by
    simp [AList.lookup_filterValues, he, hl]
  unfold recordFailedLogin
  dsimp only
  by_cases ho : other = source
  · subst ho
    rw [hk]
    simp [hl]
  · split_ifs
    · exact hk
    · rw [AList.lookup_insert_ne (Ne.symm ho), hk]

/-- While the entry of a source counts, it holds the wrong guesses of the source. -/
theorem lookup_login (he : s.loginLimits.lookup source = some (count, expiry))
    (hl : call.now < expiry) (hc : count ≤ 3)
    (hr : call.source = source → (login panel s call).2.isRight = false) :
    let wrong := (call.source = source && (login panel s call).2.isWrong).toNat
    count + wrong ≤ 3 ∧
      (login panel s call).1.loginLimits.lookup source = some (count + wrong, expiry) := by
  unfold login at hr ⊢
  split_ifs at hr ⊢ with hform hb hv
  · simpa [LoginAnswer.isWrong] using ⟨hc, he⟩
  · simpa [LoginAnswer.isWrong] using ⟨hc, he⟩
  · have ho : call.source ≠ source := by
      intro hs
      have ha := hr hs
      dsimp only at ha
      split_ifs at ha <;> cases ha
    simp [ho, hc, AList.lookup_erase_ne (Ne.symm ho), he]
  · have hw : (if (recordFailedLogin s.loginLimits call.source call.now).1 = true then
        LoginAnswer.invalidCredentials else .tooManySources).isWrong = true := by
      split_ifs <;> rfl
    rw [hw, lookup_recordFailedLogin s.loginLimits call.now he hl]
    by_cases hs : call.source = source
    · rw [hs, he] at hb
      have hf : count < 3 := by simpa [hl] using hb
      simp [hs]
      omega
    · simpa [hs] using hc

theorem wrongGuesses_le_of_entry {calls : List LoginCall}
    (he : s.loginLimits.lookup source = some (count, expiry)) (hc : count ≤ 3)
    (hl : ∀ call ∈ calls, call.now < expiry)
    (hr : ∀ entry ∈ answers panel s calls, entry.1.source = source → entry.2.isRight = false) :
    count + wrongGuesses source (answers panel s calls) ≤ 3 := by
  induction calls generalizing s count with
  | nil => exact hc
  | cons call calls ih =>
    rw [List.forall_mem_cons] at hl
    rw [answers, List.forall_mem_cons] at hr
    obtain ⟨hf, hk⟩ := lookup_login he hl.1 hc hr.1
    have hrest := ih hk hf hl.2 hr.2
    rw [answers, wrongGuesses]
    rw [wrongGuesses] at hrest
    cases hw : decide (call.source = source) && (login panel s call).2.isWrong <;>
      simp [hw] at hrest ⊢ <;> omega

theorem lookup_of_opened
    (ho : ∀ value, s.loginLimits.lookup call.source = some value → value.2 ≤ call.now)
    (hc : (login panel s call).2 = .invalidCredentials) :
    (login panel s call).1.loginLimits.lookup call.source = some (1, call.now + 180) := by
  have hp : (s.loginLimits.filterValues fun _ value => call.now < value.2).lookup
      call.source = none := by
    rw [AList.lookup_filterValues, Option.filter_eq_none_iff]
    exact fun value hv => by simpa using ho value hv
  unfold login at hc ⊢
  split_ifs at hc ⊢
  · dsimp only at hc
    split_ifs at hc
  · unfold recordFailedLogin at hc ⊢
    simp only [hp] at hc ⊢
    split_ifs at hc ⊢
    · contradiction
    · rw [AList.lookup_insert]

/-- Within 180 seconds of a wrong guess that opens an entry, at most three wrong guesses
of the source are evaluated, unless the source gives the right credentials. -/
theorem wrongGuesses_le (panel : PanelLogin) (s : LoginState) (first : LoginCall)
    (calls : List LoginCall)
    (hopens : ∀ value, s.loginLimits.lookup first.source = some value → value.2 ≤ first.now)
    (hcounted : (login panel s first).2 = .invalidCredentials)
    (hwithin : ∀ call ∈ calls, call.now < first.now + 180)
    (hright : ∀ entry ∈ answers panel s (first :: calls),
      entry.1.source = first.source → entry.2.isRight = false) :
    wrongGuesses first.source (answers panel s (first :: calls)) ≤ 3 := by
  have he := lookup_of_opened hopens hcounted
  rw [answers, List.forall_mem_cons] at hright
  have hr := wrongGuesses_le_of_entry he (by omega) hwithin hright.2
  have hf : wrongGuesses first.source (answers panel s (first :: calls)) =
      wrongGuesses first.source (answers panel (login panel s first).1 calls) + 1 := by
    simp [answers, wrongGuesses, hcounted, LoginAnswer.isWrong]
  omega

def samplePanel : PanelLogin := ⟨"admin".toList, "secret".toList, id⟩

/-- A guess as the page sends it. -/
def guessed (pass : String) : LoginCall :=
  ⟨"192.0.2.1".toList, 1000, ⟨"c1:kJOcmJ0=".toList, pass.toList⟩, "token".toList⟩

theorem wrongGuesses_le_repeated : wrongGuesses "192.0.2.1".toList
    (answers samplePanel {} (List.replicate 5 (guessed "c1:lqSUoqI="))) ≤ 3 :=
  wrongGuesses_le samplePanel {} (guessed "c1:lqSUoqI=") (List.replicate 4 (guessed "c1:lqSUoqI="))
    nofun (by decide +kernel)
    (fun _ hc => by rw [List.eq_of_mem_replicate hc]; exact Int.lt_add_of_pos_right _ (by decide))
    (by decide +kernel)

def fullSessions : AList fun _ : Text => ℤ where
  entries := (List.range maxWebSessions).map fun n => ⟨List.replicate n 'a', 2000⟩
  nodupKeys := by
    rw [List.NodupKeys, List.keys, List.map_map]
    exact List.nodup_range.map fun a b h => by simpa using congrArg List.length h

/-- All sessions are taken: the right credentials do not log the source in, but they
clear its count. -/
theorem wrongGuesses_of_full_sessions :
    let log := answers samplePanel { webSessions := fullSessions }
      (["c1:lqSUoqI=", "guess", "c1:opSSoZSj", "guess", "guess"].map guessed)
    wrongGuesses "192.0.2.1".toList log = 4 ∧
      log.map (·.2) = [.invalidCredentials, .invalidCredentials, .tooManySessions,
        .invalidCredentials, .invalidCredentials] := by
  decide +kernel

end Csqtt
