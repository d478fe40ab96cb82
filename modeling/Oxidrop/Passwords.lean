import Oxidrop.Administrators
import Oxidrop.Provenance

/-!
# The password policy

The policy is what the messages of `validate_password` say. They count characters,
the tests behind them count the bytes of the UTF-8 form, so the two part where a
password has fewer characters than bytes. A password that is not validated is never
stored.
-/
namespace Oxidrop.Passwords

open Run Table Administrators Provenance

variable {H : Type}

/-! ## One password -/

/-- Strings are equal up to case if their lower-case forms are equal. -/
structure Policy (lib : PasswordLib H) (password : String) : Prop where
  atLeast : 12 ≤ password.length
  atMost : password.length ≤ 120
  uncommon : ∀ entry ∈ blacklist, lib.toLowercase password ≠ lib.toLowercase entry

def isAscii (s : String) : Bool := s.toList.all (fun c => c.val < 128)

/-- What `str::to_lowercase` does: no character disappears, and ASCII letters are
lowered one by one. -/
structure LowerCase (lib : PasswordLib H) : Prop where
  length : ∀ s, s.length ≤ (lib.toLowercase s).length
  ascii : ∀ s, isAscii s = true → lib.toLowercase s = s.map Char.toLower

/-- Bytes and characters agree about the limits. -/
structure LengthsAgree (lib : PasswordLib H) (password : String) : Prop where
  short : ¬ (password.length < 12 ∧ 12 ≤ password.utf8ByteSize ∧
    lib.toLowercase password ∉ blacklist)
  long : ¬ (password.length ≤ 120 ∧ 120 < password.utf8ByteSize)

theorem length_le_utf8ByteSize (s : String) : s.length ≤ s.utf8ByteSize := by
  induction s using String.push_induction with
  | empty => simp
  | push s c ih =>
    have hpos := c.utf8Size_pos
    rw [String.length_push, String.utf8ByteSize_push]
    omega

theorem utf8ByteSize_le_length (s : String) : s.utf8ByteSize ≤ 4 * s.length := by
  induction s using String.push_induction with
  | empty => simp
  | push s c ih =>
    have hfour := c.utf8Size_le_four
    rw [String.length_push, String.utf8ByteSize_push]
    omega

theorem utf8ByteSize_of_ascii {s : String} (h : isAscii s = true) :
    s.utf8ByteSize = s.length := by
  induction s using String.push_induction with
  | empty => simp
  | push s c ih =>
    simp only [isAscii, String.toList_push, List.all_append, Bool.and_eq_true, List.all_cons,
      List.all_nil, and_true, decide_eq_true_eq] at h
    have hone : c.utf8Size = 1 := by
      rw [Char.utf8Size_eq_one_iff, UInt32.le_iff_toNat_le]
      have hlt := h.2
      rw [UInt32.lt_iff_toNat_lt] at hlt
      exact Nat.le_of_lt_succ hlt
    rw [String.length_push, String.utf8ByteSize_push, ih h.1, hone]

theorem lengthsAgree_of_ascii (lib : PasswordLib H) {password : String}
    (h : isAscii password = true) : LengthsAgree lib password := by
  have hsize := utf8ByteSize_of_ascii h
  exact ⟨fun hshort => by omega, fun hlong => by omega⟩

section Validation

variable {lib : PasswordLib H} {password : String}

/-- What validation accepts. -/
def Accepted (lib : PasswordLib H) (password : String) : Prop :=
  12 ≤ password.utf8ByteSize ∧ password.utf8ByteSize ≤ 120 ∧
    lib.toLowercase password ∉ blacklist

/-- Validation accepts, or it calls the password weak. -/
theorem validatePassword_cases (lib : PasswordLib H) (password : String) :
    (Accepted lib password ∧ validatePassword lib password = .ok ()) ∨
      (¬ Accepted lib password ∧
        ∃ message, validatePassword lib password = .error (.weakPassword message)) := by
  unfold validatePassword Accepted
  by_cases hshort : password.utf8ByteSize < 12
  · exact .inr ⟨fun h => absurd h.1 (by omega), _, by rw [if_pos hshort]⟩
  · rw [if_neg hshort]
    by_cases hlong : 120 < password.utf8ByteSize
    · exact .inr ⟨fun h => absurd h.2.1 (by omega), _, by rw [if_pos hlong]⟩
    · rw [if_neg hlong]
      by_cases hcommon : lib.toLowercase password ∈ blacklist
      · exact .inr ⟨fun h => h.2.2 hcommon, _,
          by rw [if_pos (List.contains_iff_mem.mpr hcommon)]⟩
      · refine .inl ⟨⟨by omega, by omega, hcommon⟩, ?_⟩
        rw [if_neg (mt List.contains_iff_mem.mp hcommon)]

theorem validatePassword_eq_ok_iff :
    validatePassword lib password = .ok () ↔ Accepted lib password := by
  rcases validatePassword_cases lib password with ⟨h, hok⟩ | ⟨h, message, herror⟩
  · exact ⟨fun _ => h, fun _ => hok⟩
  · rw [herror]
    exact ⟨fun hok => (by cases hok), fun haccepted => absurd haccepted h⟩

/-- Every entry of the blacklist is short, and the one with a capital letter is too
short for the policy. -/
theorem blacklist_lower (h : LowerCase lib) {entry : String} (he : entry ∈ blacklist) :
    (lib.toLowercase entry).length ≤ 12 ∧
      (lib.toLowercase entry = entry ∨ (lib.toLowercase entry).length < 12) := by
  have hall : ∀ e ∈ blacklist, isAscii e = true ∧ e.length ≤ 12 ∧
      (e.toList.map Char.toLower = e.toList ∨ e.length < 12) := by decide
  obtain ⟨hascii, hle, hlower⟩ := hall entry he
  rw [h.ascii entry hascii, String.length_map]
  refine ⟨hle, hlower.imp_left fun heq => String.toList_inj.mp ?_⟩
  rw [String.toList_map, heq]

/-- A password that is no longer than its lower-case form is on the blacklist, or is
short, if it equals an entry up to case. -/
theorem mem_blacklist_or_short (h : LowerCase lib) {entry : String} (he : entry ∈ blacklist)
    (heq : lib.toLowercase password = lib.toLowercase entry) :
    password.length ≤ 12 ∧ (lib.toLowercase password ∈ blacklist ∨ password.length < 12) := by
  obtain ⟨hle, hlower⟩ := blacklist_lower h he
  have hlength := h.length password
  rw [heq] at hlength ⊢
  refine ⟨hlength.trans hle, ?_⟩
  rcases hlower with hsame | hshort
  · exact .inl (by rwa [hsame])
  · exact .inr (hlength.trans_lt hshort)

/-- Validation and the policy agree exactly where bytes and characters do. -/
theorem accepted_iff_policy_iff (h : LowerCase lib) :
    (Accepted lib password ↔ Policy lib password) ↔ LengthsAgree lib password := by
  have hchars := length_le_utf8ByteSize password
  have hbytes := utf8ByteSize_le_length password
  constructor
  · intro hiff
    constructor
    · rintro ⟨hshort, hsize, hcommon⟩
      have hpolicy := hiff.mp ⟨hsize, by omega, hcommon⟩
      exact absurd hpolicy.atLeast (by omega)
    · rintro ⟨hfits, hsize⟩
      have hpolicy : Policy lib password := by
        refine ⟨by omega, hfits, fun entry he heq => ?_⟩
        have hlength := (mem_blacklist_or_short h he heq).1
        omega
      exact absurd (hiff.mpr hpolicy).2.1 (by omega)
  · rintro ⟨hshort, hlong⟩
    constructor
    · rintro ⟨hsize, hmost, hcommon⟩
      have hleast : 12 ≤ password.length := by
        by_contra hlt
        exact hshort ⟨by omega, hsize, hcommon⟩
      refine ⟨hleast, by omega, fun entry he heq => ?_⟩
      rcases (mem_blacklist_or_short h he heq).2 with hmem | hlt
      · exact hcommon hmem
      · omega
    · rintro ⟨hleast, hmost, huncommon⟩
      refine ⟨by omega, by_contra fun hlt => hlong ⟨hmost, by omega⟩, fun hmem => ?_⟩
      obtain ⟨hle, hlower⟩ := blacklist_lower h hmem
      rcases hlower with hsame | hlt
      · exact huncommon _ hmem hsame.symm
      · have hlength := h.length password
        have hlength' := h.length (lib.toLowercase password)
        omega

end Validation

/-! ## Calls -/

/-- The password that a call sets. -/
def newPassword : UserRequest → Option String
  | .createUser _ _ targetPassword _ _ _ => some targetPassword
  | .modifyUser _ _ _ _ _ password => password
  | .changePassword _ password => some password
  | _ => none

/-- The test that comes before the password is looked at. -/
def permitted : UserRequest → Bool
  | .createUser caller .. => caller.may .CREATE
  | .modifyUser caller .. => caller.may .MODIFY
  | _ => true

/-- Validation rejects a password that violates the policy, and so does the call, which
changes nothing; it accepts every other. -/
structure Enforced (lib : PasswordLib H) (t : Users H) (c : UserCall) : Prop where
  rejected : ∀ password, newPassword c.request = some password → ¬ Policy lib password →
    ∃ message, validatePassword lib password = .error (.weakPassword message) ∧
      handleUser lib c t =
        (.error (if permitted c.request then .weakPassword message else .lackingPermission), t)
  accepted : ∀ password, newPassword c.request = some password → Policy lib password →
    validatePassword lib password = .ok ()

section Steps

variable {lib : PasswordLib H}

/-- A call with an invalid password ends before it changes the table. -/
theorem handleUser_invalid {c : UserCall} {password : String} {e : UserError}
    (hc : newPassword c.request = some password) (h : validatePassword lib password = .error e)
    (t : Users H) :
    handleUser lib c t =
      (.error (if permitted c.request then e else .lackingPermission), t) := by
  unfold handleUser
  cases hr : c.request with
  | createUser caller username target role permissions mustBeChanged =>
    obtain rfl : target = password := by simpa [newPassword, hr] using hc
    by_cases hmay : caller.may .CREATE = true
    · simp only [createUser, permitted, hmay, if_true, internalInsertUser, Bool.false_eq_true,
        if_false, h]
    · simp only [createUser, permitted, hmay, if_false, Bool.false_eq_true]
  | modifyUser caller target role permissions isActive new =>
    obtain rfl : new = some password := by simpa [newPassword, hr] using hc
    by_cases hmay : caller.may .MODIFY = true
    · simp only [modifyUser, permitted, hmay, if_true, newPasswordHash, h]
    · simp only [modifyUser, permitted, hmay, if_false, Bool.false_eq_true]
  | changePassword userId new =>
    obtain rfl : new = password := by simpa [newPassword, hr] using hc
    simp [changePassword, permitted, h]
  | bootstrapDefaultAdmin => simp [newPassword, hr] at hc
  | deleteUser => simp [newPassword, hr] at hc
  | changeUsername => simp [newPassword, hr] at hc
  | authenticate => simp [newPassword, hr] at hc

theorem enforced_iff (h : LowerCase lib) (t : Users H) (c : UserCall) :
    Enforced lib t c ↔
      ∀ password, newPassword c.request = some password → LengthsAgree lib password := by
  constructor
  · intro he password hc
    refine (accepted_iff_policy_iff h).mp ⟨fun haccepted => ?_, fun hpolicy => ?_⟩
    · by_contra hviolates
      obtain ⟨message, herror, -⟩ := he.rejected password hc hviolates
      rw [validatePassword_eq_ok_iff.mpr haccepted] at herror
      cases herror
    · exact validatePassword_eq_ok_iff.mp (he.accepted password hc hpolicy)
  · intro hagree
    refine ⟨fun password hc hviolates => ?_, fun password hc hpolicy => ?_⟩
    · have hiff := (accepted_iff_policy_iff h).mpr (hagree password hc)
      rcases validatePassword_cases lib password with ⟨haccepted, -⟩ | ⟨-, message, herror⟩
      · exact absurd (hiff.mp haccepted) hviolates
      · exact ⟨message, herror, handleUser_invalid hc herror t⟩
    · have hiff := (accepted_iff_policy_iff h).mpr (hagree password hc)
      exact validatePassword_eq_ok_iff.mpr (hiff.mpr hpolicy)

end Steps

/-! ## Stored passwords -/

/-- The hash was in the table before, or a call of the run has computed it, from a
password that satisfies `P` if the call sets one. -/
def Origin (lib : PasswordLib H) (P : String → Prop) (t : Users (H × UserCall))
    (calls : List UserCall) (hash : H × UserCall) : Prop :=
  hash ∈ t.map UsersRow.passwordHash ∨
    (hash.2 ∈ calls ∧ ∀ password, newPassword hash.2.request = some password →
      lib.hashPasswordWithSalt password hash.2.env.salt = .ok hash.1 ∧ P password)

section Stored

variable {lib : PasswordLib H} {t t' : Users (H × UserCall)} {calls : List UserCall}

/-- Every hash in the table comes from a password that validation accepts. -/
def Validated (lib : PasswordLib H) (t : Users (H × UserCall)) (calls : List UserCall)
    (t' : Users (H × UserCall)) : Prop :=
  ∀ r ∈ t', Origin lib (Accepted lib) t calls r.passwordHash

theorem Origin.later {P : String → Prop} {hash : H × UserCall} (c : UserCall)
    (h : Origin lib P t calls hash) : Origin lib P t (calls ++ [c]) hash :=
  h.imp_right fun hcall => ⟨List.mem_append_left _ hcall.1, hcall.2⟩

/-- The hash that the last call computes. -/
theorem Origin.last {c : UserCall} {password : String} {hash : H × UserCall}
    (hc : ∀ p, newPassword c.request = some p → p = password ∧ Accepted lib p)
    (hhash : (tagged lib c).hashPasswordWithSalt password c.env.salt = .ok hash) :
    Origin lib (Accepted lib) t (calls ++ [c]) hash := by
  obtain ⟨hmark, hhash⟩ := tagged_hash hhash
  refine .inr ⟨by simp [hmark], fun p hp => ?_⟩
  rw [hmark] at hp ⊢
  obtain ⟨rfl, haccepted⟩ := hc p hp
  exact ⟨hhash, haccepted⟩

/-- Whatever a call with a valid password does, the hashes it stores are accounted for. -/
theorem validated_effect {c : UserCall} {answer : Except UserError Unit}
    {after : Users (H × UserCall)} (hold : Validated lib t (calls ++ [c]) t')
    (hvalid : ∀ p, newPassword c.request = some p → Accepted lib p)
    (h : Effect (tagged lib c) c t' answer after) : Validated lib t (calls ++ [c]) after := by
  cases h with
  | none => exact hold
  | @created caller password mustBeChanged row hc hflag hrow =>
    intro r hr
    rcases List.mem_append.mp hr with hr | hr
    · exact hold r hr
    · rw [List.mem_singleton.mp hr]
      refine .last (fun p hp => ⟨?_, hvalid p hp⟩) hrow.hash
      simpa [newPassword, hc] using hp.symm
  | bootstrapped row hc ht hadmin hflag hrow =>
    intro r hr
    rw [List.mem_singleton.mp hr]
    exact .last (fun p hp => by simp [newPassword, hc] at hp) hrow.hash
  | deleted hc hmay hcalm => exact fun r hr => hold r (List.mem_of_mem_filter hr)
  | @modified caller target role permissions isActive password hash hc hhash =>
    refine forall_rewrite hold fun r hr => ?_
    cases hash with
    | none => exact hold r hr
    | some hash =>
      obtain ⟨new, rfl, -, hnew⟩ := newPasswordHash_eq_some hhash
      refine .last (fun p hp => ⟨?_, hvalid p hp⟩) hnew
      simpa [newPassword, hc] using hp.symm
  | @passwordChanged userId password hash hc hhash answer hanswer =>
    refine forall_rewrite hold fun r hr => ?_
    refine .last (fun p hp => ⟨?_, hvalid p hp⟩) (hashPassword_eq_ok hhash)
    simpa [newPassword, hc] using hp.symm
  | renamed hc => exact forall_rewrite hold hold
  | loggedIn id hc => exact forall_rewrite hold hold

theorem validated_step (h : Validated lib t calls t') (c : UserCall) :
    Validated lib t (calls ++ [c]) (traced lib c t').2 := by
  have hold : Validated lib t (calls ++ [c]) t' := fun r hr => (h r hr).later c
  by_cases hinvalid : ∃ password, newPassword c.request = some password ∧ ¬ Accepted lib password
  · obtain ⟨password, hc, hviolates⟩ := hinvalid
    rcases validatePassword_cases (tagged lib c) password with ⟨haccepted, -⟩ | ⟨-, message, he⟩
    · exact absurd haccepted hviolates
    · rw [traced, handleUser_invalid hc he]
      exact hold
  · refine validated_effect hold (fun p hp => ?_) (handleUser_effect (tagged lib c) c t')
    by_contra hviolates
    exact hinvalid ⟨p, hp, hviolates⟩

theorem validated_run (lib : PasswordLib H) (t : Users (H × UserCall)) (calls : List UserCall) :
    Validated lib t calls (run (traced lib) t calls) :=
  history (C := fun _ _ => True) (I := Validated lib t)
    (fun _ hr => .inl (List.mem_map_of_mem hr)) (fun _ _ c h _ => validated_step h c) calls
    (always_of_forall _ _ (fun _ _ => trivial))

end Stored

/-! ## Runs -/

/-- The policy over a run: every call enforces it, and every password whose hash is
stored satisfies it. -/
structure PolicyHolds (lib : PasswordLib H) (t : Users (H × UserCall))
    (calls : List UserCall) : Prop where
  enforced : Always (handleUser lib) (Enforced lib) (t.map (mapHash Prod.fst)) calls
  stored : ∀ r ∈ run (traced lib) t calls,
    Origin lib (Policy lib) t calls r.passwordHash

/-- From every table the policy holds over a run exactly if bytes and characters agree
about the limits for every password that a call of it sets. -/
theorem policy_holds_iff (lib : PasswordLib H) (h : LowerCase lib) (t : Users (H × UserCall))
    (calls : List UserCall) :
    PolicyHolds lib t calls ↔
      ∀ c ∈ calls, ∀ password, newPassword c.request = some password →
        LengthsAgree lib password := by
  have hsteps : Always (handleUser lib) (Enforced lib) (t.map (mapHash Prod.fst)) calls ↔
      ∀ c ∈ calls, ∀ password, newPassword c.request = some password →
        LengthsAgree lib password := by
    rw [always_congr (I := fun _ => True) (fun t c _ => enforced_iff h t c)
      (fun _ _ _ _ => trivial) _ calls trivial]
    exact ⟨fun hall c hc => by
      obtain ⟨pre, post, rfl⟩ := List.append_of_mem hc
      exact (always_iff _ _).mp hall pre c post rfl, always_of_forall _ _⟩
  refine ⟨fun hholds => hsteps.mp hholds.enforced, fun hagree => ⟨hsteps.mpr hagree, ?_⟩⟩
  intro r hr
  refine (validated_run lib t calls r hr).imp_right fun h' => ⟨h'.1, fun password hpassword => ?_⟩
  obtain ⟨hhash, haccepted⟩ := h'.2 password hpassword
  have hiff := (accepted_iff_policy_iff h).mpr (hagree _ h'.1 password hpassword)
  exact ⟨hhash, hiff.mp haccepted⟩

theorem plainLib_toLowercase (s : String) : plainLib.toLowercase s = s.map Char.toLower := rfl

theorem plainLib_lowerCase : LowerCase plainLib where
  length s := by simp [plainLib_toLowercase]
  ascii s _ := plainLib_toLowercase s

/-- Two passwords in ASCII, of which the first is on the blacklist. -/
theorem policy_holds_ascii :
    PolicyHolds plainLib []
      [⟨.createUser .root "user" "password1234" .viewer .NONE true, .calm⟩,
        ⟨.changePassword 1 "correct horse battery", .calm⟩] := by
  refine (policy_holds_iff _ plainLib_lowerCase [] _).mpr fun c hc password hp => ?_
  refine lengthsAgree_of_ascii _ ?_
  rcases List.mem_pair.mp hc with rfl | rfl
  · cases hp
    decide
  · cases hp
    decide

def umlauts (n : Nat) : String := String.ofList (List.replicate n 'ä')

@[simp] theorem umlauts_length (n : Nat) : (umlauts n).length = n := by simp [umlauts]

@[simp] theorem umlauts_size (n : Nat) : (umlauts n).utf8ByteSize = 2 * n := by
  unfold umlauts
  induction n with
  | zero => simp
  | succ n ih =>
    have htwo : (String.ofList ['ä']).utf8ByteSize = 2 := by decide
    rw [List.replicate_succ', String.ofList_append, String.utf8ByteSize_append, ih, htwo]
    omega

/-- Six characters of two bytes each pass, sixty-one are too long. -/
theorem policy_fails_umlauts :
    ¬ PolicyHolds plainLib []
        [⟨.createUser .root "user" (umlauts 6) .viewer .NONE true, .calm⟩] ∧
      ¬ PolicyHolds plainLib [] [⟨.changePassword 1 (umlauts 61), .calm⟩] := by
  constructor
  · rintro ⟨⟨hfirst, -⟩, -⟩
    have hlower : (umlauts 6).map Char.toLower = umlauts 6 :=
      String.toList_inj.mp (by rw [String.toList_map]; decide)
    have hcommon : plainLib.toLowercase (umlauts 6) ∉ blacklist := by
      rw [plainLib_toLowercase, hlower]
      decide
    have hok := validatePassword_eq_ok_iff.mpr ⟨by simp, by simp, hcommon⟩
    obtain ⟨message, herror, -⟩ := hfirst.rejected _ rfl fun hpolicy => by
      simpa using hpolicy.atLeast
    rw [hok] at herror
    cases herror
  · rintro ⟨⟨hfirst, -⟩, -⟩
    have hpolicy : Policy plainLib (umlauts 61) := by
      refine ⟨by simp, by simp, fun entry he heq => ?_⟩
      exact absurd (mem_blacklist_or_short plainLib_lowerCase he heq).1 (by simp)
    have haccepted := validatePassword_eq_ok_iff.mp (hfirst.accepted _ rfl hpolicy)
    exact absurd haccepted.2.1 (by simp)

end Oxidrop.Passwords
