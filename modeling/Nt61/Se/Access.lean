/-
Access — the access check, `se/seaccess.rs` with `se/acl.rs`, `se/sid.rs`, `se/token.rs`.

Rights by privilege are granted for what is requested, so a request for the maximum is granted none
of them. The masks of the ACEs are taken as they are, generic bits included, and a group grants
unless it is deny-only, enabled or not. The integrity level is compared for the rights that are asked
for, before generic rights are mapped.

Main results:
- `granted_iff`: what a DACL grants, right by right;
- `maximum_allowed_iff`: when the maximum is what single requests are granted;
- `no_write_up_iff`: the requests for which a low token gets no write right;
- `generic_masks_iff`, `restricted_token_iff`: when mapping the masks of the ACEs, or taking away the
  groups that are not enabled, changes the result.
-/
import Mathlib.Algebra.Order.Ring.Nat
import Mathlib.Data.List.Basic
import Nt61.Lib.Fields

namespace Nt61.Access

open Lib List
open Option hiding or_assoc

/-! ## The code -/

abbrev Mask := BitVec 32

/-- `sub_authority` up to its count, or to its length. -/
structure Sid where
  revision : UInt8
  subAuthorityCount : UInt8
  identifierAuthority : Bytes
  subAuthority : List Nat
  deriving DecidableEq

def Sid.fromBytes (bytes : Bytes) : Option Sid :=
  let count := (bytes.getD 1 0).toNat
  if bytes.length < 8 ∨ bytes.getD 0 0 ≠ 1 then none
  else if 8 < count ∨ bytes.length < 8 + count * 4 then none
  else some ⟨1, bytes.getD 1 0, slice bytes 2 6,
    (range count).map fun index => leValue (slice bytes (8 + index * 4) 4)⟩

structure TokenGroup where
  sid : Sid
  attributes : Mask

structure TokenPrivilege where
  lowPart : Nat
  highPart : Int
  attributes : Mask

structure Token where
  user : Sid
  groups : List TokenGroup
  privileges : List TokenPrivilege
  integrityLevelRid : Nat

/-- The group is not `SE_GROUP_USE_FOR_DENY_ONLY`. -/
def TokenGroup.grants (group : TokenGroup) : Bool := group.attributes &&& 0x10#32 = 0#32

namespace Token

variable (token : Token)

def hasPrivilege (privilege : Nat) : Bool :=
  token.privileges.any fun p =>
    p.lowPart = privilege && p.highPart = 0 && p.attributes &&& 2#32 ≠ 0#32

def isAdmin : Bool :=
  token.user = ⟨1, 1, [0, 0, 0, 0, 0, 5], [18]⟩
    || token.groups.any fun group => group.grants && group.sid = ⟨1, 2, [0, 0, 0, 0, 0, 5], [32, 544]⟩

def sidMatches (sid : Sid) : Bool :=
  sid = token.user || token.groups.any fun group => group.grants && sid = group.sid

def sidIn (sid : Sid) : Bool := sid = token.user || token.groups.any (sid = ·.sid)

end Token

inductive AceType where
  | AccessAllowed | AccessDenied | SystemAudit | SystemAlarm | AccessAllowedCompound
  | AccessAllowedObject | AccessDeniedObject | SystemAuditObject | SystemAlarmObject
  | AccessAllowedCallback | AccessDeniedCallback | AccessAllowedCallbackObject
  | AccessDeniedCallbackObject | SystemAuditCallback | SystemAlarmCallback
  | SystemAuditCallbackObject | SystemAlarmCallbackObject | SystemMandatoryLabel
  | SystemResourceAttribute | SystemScopedPolicy | SystemProcessTrustLabel
  deriving DecidableEq

/-- The types are numbered from 0 to 0x14. -/
def AceType.fromU8 (v : UInt8) : Option AceType :=
  [AccessAllowed, AccessDenied, SystemAudit, SystemAlarm, AccessAllowedCompound,
    AccessAllowedObject, AccessDeniedObject, SystemAuditObject, SystemAlarmObject,
    AccessAllowedCallback, AccessDeniedCallback, AccessAllowedCallbackObject,
    AccessDeniedCallbackObject, SystemAuditCallback, SystemAlarmCallback,
    SystemAuditCallbackObject, SystemAlarmCallbackObject, SystemMandatoryLabel,
    SystemResourceAttribute, SystemScopedPolicy, SystemProcessTrustLabel][v.toNat]?

def AceType.allows (type : AceType) : Bool :=
  type ∈ [AccessAllowed, AccessAllowedCallback, AccessAllowedCallbackObject]

def AceType.denies (type : AceType) : Bool :=
  type ∈ [AccessDenied, AccessDeniedCallback, AccessDeniedCallbackObject]

structure Ace where
  aceType : AceType
  mask : Mask
  sid : Sid
  deriving DecidableEq

def Ace.apply (token : Token) (rights : Mask × Mask) (ace : Ace) : Mask × Mask :=
  if ace.aceType.denies ∧ token.sidIn ace.sid then (rights.1, rights.2 ||| ace.mask)
  else if ace.aceType.allows ∧ token.sidMatches ace.sid then (rights.1 ||| ace.mask, rights.2)
  else rights

structure Acl where
  revision : UInt8
  aclSize : Nat
  aceCount : Nat
  data : Bytes

namespace Acl

variable (acl : Acl)

def aceSize (offset : Nat) : Nat := leValue (slice acl.data (offset + 2) 2)

def aceType (offset : Nat) : UInt8 := acl.data.getD offset 0

def aceSid (offset : Nat) : Option Sid :=
  Sid.fromBytes (slice acl.data (offset + 8) (acl.aceSize offset - 8))

def usedFrom : Nat → Nat → Option Nat
  | 0, offset => some offset
  | count + 1, offset =>
    if acl.aclSize < offset + 4 ∨ acl.aceSize offset < 8
        ∨ acl.aclSize < offset + acl.aceSize offset ∨ 0x14 < acl.aceType offset then none
    else if acl.aceType offset ∈ [0x00, 0x01, 0x02, 0x09, 0x0A, 0x0D, 0x0E, 0x11, 0x14]
        ∧ (acl.aceSize offset < 16 ∨ acl.aceSid offset = none) then none
    else usedFrom count (offset + acl.aceSize offset)

def isValid : Bool :=
  8 ≤ acl.aclSize && acl.aclSize ≤ acl.data.length && (acl.revision = 2 || acl.revision = 4)
    && acl.aceCount ≤ 16 && acl.usedFrom acl.aceCount 8 = some acl.aclSize

/-- The ACEs from an offset on, if all of them can be read; each round moves on. -/
def acesFrom : Nat → Nat → Option (List Ace)
  | 0, _ => some []
  | rounds + 1, offset =>
    if acl.aclSize < offset + 4 then some []
    else if acl.aceSize offset < 8 ∨ acl.aclSize < offset + acl.aceSize offset then some []
    else if acl.aceSize offset < 16 then none
    else (acl.aceSid offset).bind fun sid =>
      (AceType.fromU8 (acl.aceType offset)).bind fun type =>
        (acesFrom rounds (offset + acl.aceSize offset)).map
          (⟨type, BitVec.ofNat 32 (leValue (slice acl.data (offset + 4) 4)), sid⟩ :: ·)

def aces : Option (List Ace) := if !acl.isValid then none else acl.acesFrom acl.aclSize 8

end Acl

structure GenericMapping where
  genericRead : Mask
  genericWrite : Mask
  genericExecute : Mask
  genericAll : Mask

def GenericMapping.mapGeneric (gm : GenericMapping) (access : Mask) : Mask :=
  [(0x80000000#32, gm.genericRead), (0x40000000#32, gm.genericWrite), (0x20000000#32, gm.genericExecute),
    (0x10000000#32, gm.genericAll)].foldl (fun (access : Mask) (right : Mask × Mask) =>
      if access &&& right.1 ≠ 0#32 then access &&& ~~~right.1 ||| right.2 else access) access

def ACCESS_MAXIMUM_ALLOWED : Mask := 0x02000000#32

def privilegeAccessGrants : List (Nat × Mask) :=
  [(0x9, 0x80000#32), (0x8, 0x1000000#32), (0x11, 0x20000#32), (0x12, 0x40000#32)]

/-- The rights that privileges give for a request. -/
def privilegeGrants (token : Token) (desired : Mask) : Mask :=
  let grants := privilegeAccessGrants.foldl (fun (grants : Mask) (p : Nat × Mask) =>
    if desired &&& p.2 ≠ 0#32 ∧ token.hasPrivilege p.1 then grants ||| p.2 else grants) 0#32
  if desired &&& 0x1F1FFF#32 ≠ 0#32 ∧ token.hasPrivilege 0x14 ∧ token.isAdmin then grants ||| 0x38#32
  else grants

/-- The rights that are granted, if the access is. -/
def conclude (token : Token) (maximumAllowed : Bool) (desired maximumAccess : Mask)
    (rights : Mask × Mask) : Option Mask :=
  let granted := rights.1 &&& ~~~rights.2
  let grants := privilegeGrants token desired &&& ~~~rights.2
  if desired &&& rights.2 ≠ 0#32 then none
  else if !maximumAllowed && desired &&& ~~~granted &&& ~~~grants ≠ 0#32 then none
  else
    let granted := if maximumAllowed then (granted ||| grants) &&& maximumAccess
      else granted &&& desired ||| grants &&& desired
    if maximumAllowed && granted = 0#32 then none else some granted

/-- A null DACL is `none`; one that is not valid, or cannot be read, is `some none`. -/
def checkAccessWithGranted (desired : Mask) (token : Token) (dacl : Option (Option (List Ace)))
    (gm : Option GenericMapping) : Option Mask :=
  let maximumAllowed := desired &&& ACCESS_MAXIMUM_ALLOWED ≠ 0#32
  let desired := desired &&& ~~~ACCESS_MAXIMUM_ALLOWED
  let desired := gm.elim desired (·.mapGeneric desired)
  let maximumAccess := gm.elim (~~~ACCESS_MAXIMUM_ALLOWED) (·.genericAll)
  match dacl with
  | none => some (if maximumAllowed then maximumAccess else desired)
  | some aces => aces.bind fun aces =>
    conclude token maximumAllowed desired maximumAccess (aces.foldl (Ace.apply token) (0#32, 0#32))

def checkAccess (desired : Mask) (token : Token) (dacl : Option (Option (List Ace)))
    (gm : Option GenericMapping) : Bool :=
  (checkAccessWithGranted desired token dacl gm).isSome

inductive ObTypeIndex where
  | Null | Process | Thread | Directory | SymbolicLink | Token | ProcessToken | ThreadToken | Event
  | EventPair | Mutant | Callback | Section | Alias | WindowStation | Desktop | Type
  | ObjectDirectory | Key | File | Semaphore

def getGenericMappingForType : ObTypeIndex → GenericMapping
  | .Process => ⟨0x410, 0xC2, 0x1000, 0x1F0FFF⟩
  | .Thread => ⟨0x408, 0x30, 0x800, 0x1F03FF⟩
  | .File => ⟨0x2001F, 0x30030, 0x20020, 0xF01FF⟩
  | .Key => ⟨0x2001F, 0x20036, 0x2000C, 0xF003F⟩
  | .Directory | .ObjectDirectory => ⟨0x9, 0x6, 0x9, 0xF⟩
  | .Event | .Semaphore => ⟨0x1, 0x2, 0x1, 0x1F⟩
  | .Mutant => ⟨0x1, 0x1, 0x1, 0x1F⟩
  | .Section => ⟨0x5, 0xA, 0x8, 0xF⟩
  | .Token => ⟨0x8, 0x60, 0x8, 0xF07FF⟩
  | _ => ⟨0x20000, 0x40000, 0x20000, 0xF0000⟩

/-- FILE_WRITE_DATA, FILE_APPEND_DATA, FILE_WRITE_EA, FILE_WRITE_ATTRIBUTES, DELETE, WRITE_DAC and
WRITE_OWNER. -/
def GUARDED_RIGHTS : Mask := 0xD0116#32

def WRITE_ACCESS_MASK : Mask := GUARDED_RIGHTS ||| 0x40000000#32

def seCheckMandatoryIntegrity (token : Token) (objectIntegrity : Nat) (desired : Mask) : Bool :=
  !(desired &&& WRITE_ACCESS_MASK ≠ 0#32 && token.integrityLevelRid < objectIntegrity)

/-- `integrity` is the level that the SACL says; a null DACL is `none`. -/
structure SecurityDescriptor where
  control : BitVec 16
  integrity : Nat
  dacl : Option Acl

/-- `defaultDacl`: the DACL of the descriptor made from the token, if there is room for it. -/
def seAccessCheck (objectType : ObTypeIndex) (sd : Option SecurityDescriptor) (desired : Mask)
    (token : Token) (defaultDacl : Option (Option Acl)) : Option Mask :=
  let check (dacl : Option Acl) :=
    checkAccessWithGranted desired token (dacl.map Acl.aces)
      (some (getGenericMappingForType objectType))
  match sd with
  | none => defaultDacl.bind check
  | some sd =>
    if !seCheckMandatoryIntegrity token sd.integrity desired then none
    else if sd.control &&& 4#16 = 0#16 then defaultDacl.bind check
    else check sd.dacl

/-! ## Bits -/

section

variable {a b c : Mask}

lemma and_eq_zero_iff : a &&& b = 0#32 ↔ ∀ i : Nat, a.getLsbD i → b.getLsbD i = false := by
  constructor
  · intro h i ha
    have hi := congrArg (BitVec.getLsbD · i) h
    simpa [ha] using hi
  · intro h
    apply BitVec.eq_of_getLsbD_eq
    intro i _
    cases ha : a.getLsbD i with
    | false => rw [BitVec.getLsbD_and, ha, Bool.false_and, BitVec.getLsbD_zero]
    | true => rw [BitVec.getLsbD_and, h i ha, Bool.and_false, BitVec.getLsbD_zero]

lemma and_not_eq_zero_iff : a &&& ~~~b = 0#32 ↔ ∀ i < 32, a.getLsbD i → b.getLsbD i := by
  rw [and_eq_zero_iff]
  constructor
  · intro h i hi ha
    simpa [hi] using h i ha
  · intro h i ha
    simp [h i (BitVec.lt_of_getLsbD ha) ha]

lemma and_eq_zero_of_and (h : a &&& b = 0#32) (hc : b &&& c = c) : a &&& c = 0#32 := by
  rw [← hc, ← BitVec.and_assoc, h, BitVec.zero_and]

lemma and_not_eq_self (h : a &&& b = 0#32) : a &&& ~~~b = a := by
  apply BitVec.eq_of_getLsbD_eq
  intro i hi
  have hb := and_eq_zero_iff.mp h i
  cases ha : a.getLsbD i <;> simp_all

lemma ne_zero_iff : a ≠ 0#32 ↔ ∃ i < 32, a.getLsbD i := by
  rw [← not_iff_not, not_not, not_exists]
  simp only [not_and, Bool.not_eq_true]
  constructor
  · rintro rfl i -
    exact BitVec.getLsbD_zero
  · intro h
    exact BitVec.eq_of_getLsbD_eq fun i hi => by rw [h i hi, BitVec.getLsbD_zero]

end

lemma genericAll_specific (objectType : ObTypeIndex) :
    0xF2000000#32 &&& (getGenericMappingForType objectType).genericAll = 0#32 := by
  cases objectType <;> rfl

lemma mapGeneric_specific (gm : GenericMapping) {r : Mask} (h : r &&& 0xF0000000#32 = 0#32) :
    gm.mapGeneric r = r := by
  have hrt {m : Mask} (hm : 0xF0000000#32 &&& m = m) := and_eq_zero_of_and h hm
  simp [GenericMapping.mapGeneric, @hrt 0x80000000#32 rfl, @hrt 0x40000000#32 rfl,
    @hrt 0x20000000#32 rfl, @hrt 0x10000000#32 rfl]

/-! ## What a DACL grants -/

def Token.AllowedBy (token : Token) (ace : Ace) : Prop :=
  ace.aceType.allows ∧ token.sidMatches ace.sid

def Token.DeniedBy (token : Token) (ace : Ace) : Prop := ace.aceType.denies ∧ token.sidIn ace.sid

/-- An ACE allows the right, or denies it. -/
def Token.Allowed (token : Token) (aces : List Ace) (i : Nat) : Prop :=
  ∃ ace ∈ aces, token.AllowedBy ace ∧ ace.mask.getLsbD i

def Token.Denied (token : Token) (aces : List Ace) (i : Nat) : Prop :=
  ∃ ace ∈ aces, token.DeniedBy ace ∧ ace.mask.getLsbD i

lemma Token.not_allowedBy {token : Token} {ace : Ace} (h : token.DeniedBy ace) :
    ¬token.AllowedBy ace := by
  unfold AllowedBy
  obtain ⟨hty, -⟩ := h
  cases htp : ace.aceType <;> simp_all [AceType.denies, AceType.allows]

/-- The ACEs add the bits of the masks that count, in any order. -/
lemma foldl_apply (token : Token) (aces : List Ace) (rights : Mask × Mask) (i : Nat) :
    let rights' := aces.foldl (Ace.apply token) rights
    (rights'.1.getLsbD i
      ↔ rights.1.getLsbD i ∨ ∃ ace ∈ aces, token.AllowedBy ace ∧ ace.mask.getLsbD i)
    ∧ (rights'.2.getLsbD i
      ↔ rights.2.getLsbD i ∨ ∃ ace ∈ aces, token.DeniedBy ace ∧ ace.mask.getLsbD i) := by
  dsimp only
  induction aces generalizing rights with
  | nil => simp
  | cons ace aces ih =>
    obtain ⟨hal, hdn⟩ := ih (ace.apply token rights)
    rw [foldl_cons, hal, hdn]
    simp only [mem_cons, exists_eq_or_imp, ← or_assoc]
    by_cases hd : token.DeniedBy ace
    · rw [show ace.apply token rights = _ from if_pos hd]
      simp [hd, Token.not_allowedBy hd]
    by_cases ha : token.AllowedBy ace
    · rw [show ace.apply token rights = _ from (if_neg hd).trans (if_pos ha)]
      simp [hd, ha]
    · rw [show ace.apply token rights = _ from (if_neg hd).trans (if_neg ha)]
      simp [hd, ha]

lemma conclude_specific {token : Token} {request granted maximumAccess : Mask}
    {rights : Mask × Mask} :
    conclude token false request maximumAccess rights = some granted
      ↔ granted = request ∧ ∀ i < 32, request.getLsbD i → ¬rights.2.getLsbD i
        ∧ (rights.1.getLsbD i ∨ (privilegeGrants token request).getLsbD i) := by
  unfold conclude
  generalize privilegeGrants token request = grants
  have hms : request &&& ~~~(rights.1 &&& ~~~rights.2) &&& ~~~(grants &&& ~~~rights.2) = 0#32
      ↔ ∀ i < 32, request.getLsbD i → ¬rights.2.getLsbD i
        ∧ (rights.1.getLsbD i ∨ grants.getLsbD i) := by
    rw [and_not_eq_zero_iff]
    refine forall₂_congr fun i hi => ?_
    simp only [BitVec.getLsbD_and, BitVec.getLsbD_not, hi, decide_true, Bool.true_and]
    cases request.getLsbD i <;> cases rights.2.getLsbD i <;> cases rights.1.getLsbD i <;> simp
  rw [← hms]
  by_cases hm : request &&& ~~~(rights.1 &&& ~~~rights.2) &&& ~~~(grants &&& ~~~rights.2) = 0#32
  · have hdn : request &&& rights.2 = 0#32 := by
      rw [and_eq_zero_iff]
      intro i hi
      simpa using (hms.mp hm i (BitVec.lt_of_getLsbD hi) hi).1
    have hwh : rights.1 &&& ~~~rights.2 &&& request ||| grants &&& ~~~rights.2 &&& request
        = request := by
      apply BitVec.eq_of_getLsbD_eq
      intro i hi
      have hbt := hms.mp hm i hi
      cases hr : request.getLsbD i <;> simp_all
    simpa [hdn, hm, hwh] using eq_comm
  · simp [hm]

/-- **A request for given rights** is granted as it is or not at all: each right must be allowed by
an ACE or by a privilege, and denied by no ACE, wherever in the DACL they stand. -/
theorem granted_iff (desired granted : Mask) (token : Token) (aces : List Ace)
    (gm : Option GenericMapping) (hspecific : desired &&& ACCESS_MAXIMUM_ALLOWED = 0#32) :
    let request := gm.elim desired (·.mapGeneric desired)
    checkAccessWithGranted desired token (some (some aces)) gm = some granted
      ↔ granted = request ∧ ∀ i < 32, request.getLsbD i →
        (¬∃ ace ∈ aces, token.DeniedBy ace ∧ ace.mask.getLsbD i)
        ∧ ((∃ ace ∈ aces, token.AllowedBy ace ∧ ace.mask.getLsbD i)
          ∨ (privilegeGrants token request).getLsbD i) := by
  have hfo := foldl_apply token aces (0#32, 0#32)
  simp only [BitVec.getLsbD_zero, Bool.false_eq_true, false_or] at hfo
  simp only [checkAccessWithGranted, hspecific, and_not_eq_self hspecific, bind_some, ne_eq,
    not_true_eq_false, decide_false, conclude_specific, hfo]

def someone (groups : List TokenGroup) (privileges : List TokenPrivilege) : Token :=
  ⟨⟨1, 1, [0, 0, 0, 0, 0, 5], [1000]⟩, groups, privileges, 0⟩

def someGroup : Sid := ⟨1, 1, [0, 0, 0, 0, 0, 5], [2000]⟩

def emptyDacl : Acl := ⟨2, 8, 0, replicate 8 0⟩

/-- One ACE that allows a mask to a SID of one sub-authority. -/
def oneAce (mask rid : Nat) : Acl :=
  ⟨2, 28, 1, replicate 8 0 ++ [0, 0, 20, 0] ++ leBytes 4 mask ++ [1, 1, 0, 0, 0, 0, 0, 5]
    ++ leBytes 4 rid⟩

/-- A denied right and an allowed one, in this order. -/
theorem granted_iff_user : checkAccessWithGranted 1 (someone [⟨someGroup, 4⟩] [])
    (some (some [⟨.AccessDenied, 2, someGroup⟩, ⟨.AccessAllowed, 3, (someone [] []).user⟩])) none
      = some 1 :=
  (granted_iff 1 1 _ _ none rfl).mpr ⟨rfl, by unfold Token.DeniedBy Token.AllowedBy; decide +kernel⟩

/-- What the ACEs and the privileges say to a request, for the maximum or not. -/
def Grants (token : Token) (aces : List Ace) (maximum : Bool) (request maximumAccess : Mask) : Prop :=
  (∀ i < 32, request.getLsbD i → ¬token.Denied aces i)
    ∧ if maximum then ∃ i < 32, maximumAccess.getLsbD i ∧ ¬token.Denied aces i
          ∧ (token.Allowed aces i ∨ (privilegeGrants token request).getLsbD i)
      else ∀ i < 32, request.getLsbD i →
        token.Allowed aces i ∨ (privilegeGrants token request).getLsbD i

lemma conclude_isSome {token : Token} {maximum : Bool} {request maximumAccess : Mask}
    {rights : Mask × Mask} : (conclude token maximum request maximumAccess rights).isSome
      ↔ (∀ i < 32, request.getLsbD i → ¬rights.2.getLsbD i)
        ∧ if maximum then ∃ i < 32, maximumAccess.getLsbD i ∧ ¬rights.2.getLsbD i
            ∧ (rights.1.getLsbD i ∨ (privilegeGrants token request).getLsbD i)
          else ∀ i < 32, request.getLsbD i →
            rights.1.getLsbD i ∨ (privilegeGrants token request).getLsbD i := by
  cases maximum with
  | false =>
    rw [isSome_iff_exists]
    simp only [conclude_specific, exists_eq_left, Bool.false_eq_true, if_false, forall_and]
  | true =>
    have hdn : request &&& rights.2 = 0#32 ↔ ∀ i < 32, request.getLsbD i → ¬rights.2.getLsbD i := by
      rw [and_eq_zero_iff]
      exact ⟨fun h i _ hr => by simp [h i hr],
        fun h i hr => by simpa using h i (BitVec.lt_of_getLsbD hr) hr⟩
    unfold conclude
    generalize privilegeGrants token request = grants
    have hsm : ((rights.1 &&& ~~~rights.2 ||| grants &&& ~~~rights.2) &&& maximumAccess) ≠ 0#32
        ↔ ∃ i < 32, maximumAccess.getLsbD i ∧ ¬rights.2.getLsbD i
          ∧ (rights.1.getLsbD i ∨ grants.getLsbD i) := by
      rw [ne_zero_iff]
      refine exists_congr fun i => and_congr_right fun hi => ?_
      simp only [BitVec.getLsbD_and, BitVec.getLsbD_or, BitVec.getLsbD_not, hi, decide_true,
        Bool.true_and]
      cases rights.2.getLsbD i <;> cases maximumAccess.getLsbD i <;> simp
    rw [← hdn, if_pos rfl, ← hsm]
    by_cases hd : request &&& rights.2 = 0#32 <;>
      by_cases hz : (rights.1 &&& ~~~rights.2 ||| grants &&& ~~~rights.2) &&& maximumAccess = 0#32 <;>
      simp [hd, hz]

/-- The request as it is checked. -/
def requested (gm : Option GenericMapping) (desired : Mask) : Mask :=
  gm.elim (desired &&& ~~~ACCESS_MAXIMUM_ALLOWED) (·.mapGeneric (desired &&& ~~~ACCESS_MAXIMUM_ALLOWED))

def maximum (gm : Option GenericMapping) : Mask :=
  gm.elim (~~~ACCESS_MAXIMUM_ALLOWED) (·.genericAll)

lemma checkAccess_iff (desired : Mask) (token : Token) (aces : List Ace)
    (gm : Option GenericMapping) : checkAccess desired token (some (some aces)) gm = true
      ↔ Grants token aces (desired &&& ACCESS_MAXIMUM_ALLOWED ≠ 0#32) (requested gm desired)
        (maximum gm) := by
  have hfl := foldl_apply token aces (0#32, 0#32)
  simp only [BitVec.getLsbD_zero, Bool.false_eq_true, false_or] at hfl
  rw [checkAccess, checkAccessWithGranted, bind_some, conclude_isSome]
  simp only [hfl]
  rfl

/-! ## The maximum -/

lemma grant_bit {r c m g : Mask} {i : Nat} {p : Prop} [Decidable p] (hr : r.getLsbD i)
    (hc : m.getLsbD i → c.getLsbD i) :
    (if r &&& c ≠ 0#32 ∧ p then g ||| m else g).getLsbD i
      = (g.getLsbD i || m.getLsbD i && decide p) := by
  cases hm : m.getLsbD i with
  | false => split <;> simp [hm]
  | true =>
    have hne : r &&& c ≠ 0#32 := fun h0 => by
      have hno := and_eq_zero_iff.mp h0 i hr
      simp [hc hm] at hno
    by_cases hp : p <;> simp [hne, hp, hm]

/-- Whether a privilege gives a right does not depend on what else is asked for. -/
lemma privilegeGrants_bit (token : Token) {r : Mask} {i : Nat} (hr : r.getLsbD i) :
    (privilegeGrants token r).getLsbD i
      = (privilegeGrants token (BitVec.twoPow 32 i)).getLsbD i := by
  have hi := BitVec.lt_of_getLsbD hr
  have hon : (BitVec.twoPow 32 i).getLsbD i := by simp [hi]
  have hdb : ∀ i < 32, (0x38#32).getLsbD i → (0x1F1FFF#32).getLsbD i := by decide
  simp only [privilegeGrants, privilegeAccessGrants, foldl_cons, foldl_nil,
    grant_bit hr id, grant_bit hon id, grant_bit hr (hdb i hi), grant_bit hon (hdb i hi)]

lemma maximum_bit (token : Token) (aces : List Ace) (gm : GenericMapping) {i : Nat} (hi : i < 32) :
    ((checkAccessWithGranted ACCESS_MAXIMUM_ALLOWED token (some (some aces))
        (some gm)).getD 0#32).getLsbD i
      ↔ gm.genericAll.getLsbD i ∧ token.Allowed aces i ∧ ¬token.Denied aces i := by
  have hfl := foldl_apply token aces (0#32, 0#32) i
  simp only [BitVec.getLsbD_zero, Bool.false_eq_true, false_or] at hfl
  generalize hrg : aces.foldl (Ace.apply token) (0#32, 0#32) = rights at hfl
  have hnn : privilegeGrants token 0#32 = 0#32 := by simp [privilegeGrants, privilegeAccessGrants]
  have hmx : (checkAccessWithGranted ACCESS_MAXIMUM_ALLOWED token (some (some aces))
      (some gm)).getD 0#32 = rights.1 &&& ~~~rights.2 &&& gm.genericAll := by
    have hzr : ACCESS_MAXIMUM_ALLOWED &&& ~~~ACCESS_MAXIMUM_ALLOWED = 0#32 := rfl
    have hst : ACCESS_MAXIMUM_ALLOWED ≠ 0#32 := by decide
    simp only [checkAccessWithGranted, bind_some, hrg, hzr, elim_some,
      mapGeneric_specific _ (BitVec.zero_and : 0#32 &&& _ = _), conclude, hnn]
    by_cases hz : rights.1 &&& ~~~rights.2 &&& gm.genericAll = 0#32 <;> simp [hz, hst]
  rw [hmx, Token.Allowed, Token.Denied, ← hfl.1, ← hfl.2]
  simp [hi, and_comm, and_assoc]

lemma integrity_iff (token : Token) (level : Nat) (r : Mask) :
    seCheckMandatoryIntegrity token level r = true ↔ ∀ i < 32, r.getLsbD i →
      ¬(WRITE_ACCESS_MASK.getLsbD i ∧ token.integrityLevelRid < level) := by
  have hand : r &&& WRITE_ACCESS_MASK = 0#32
      ↔ ∀ i < 32, r.getLsbD i → ¬WRITE_ACCESS_MASK.getLsbD i := by
    rw [and_eq_zero_iff]
    exact ⟨fun h i _ hr => by simp [h i hr],
      fun h i hr => by simpa using h i (BitVec.lt_of_getLsbD hr) hr⟩
  by_cases hlw : token.integrityLevelRid < level
  · simp [seCheckMandatoryIntegrity, hlw, hand]
  · simp [seCheckMandatoryIntegrity, hlw]

/-- Specific rights are granted exactly if the level admits each, no ACE denies it, and an ACE
or a privilege gives it. -/
lemma specific_isSome {gm : GenericMapping} {token : Token} {level : Nat} {aces : List Ace}
    (hsp : 0xF2000000#32 &&& gm.genericAll = 0#32) {r : Mask}
    (hal : r &&& ~~~gm.genericAll = 0#32) : (if seCheckMandatoryIntegrity token level r then
        checkAccessWithGranted r token (some (some aces)) (some gm) else none).isSome
      ↔ ∀ i < 32, r.getLsbD i → ¬(WRITE_ACCESS_MASK.getLsbD i ∧ token.integrityLevelRid < level)
        ∧ ¬token.Denied aces i ∧ (token.Allowed aces i
          ∨ (privilegeGrants token (BitVec.twoPow 32 i)).getLsbD i) := by
  have hr : r &&& 0xF2000000#32 = 0#32 := by
    rw [and_eq_zero_iff]
    intro i hi
    have hin := and_not_eq_zero_iff.mp hal i (BitVec.lt_of_getLsbD hi) hi
    have hot := and_eq_zero_iff.mp hsp i
    cases hbt : (0xF2000000#32).getLsbD i <;> simp_all
  have hmx : r &&& ACCESS_MAXIMUM_ALLOWED = 0#32 := and_eq_zero_of_and hr rfl
  have hrq : requested (some gm) r = r := by
    rw [requested, elim_some, and_not_eq_self hmx,
      mapGeneric_specific _ (and_eq_zero_of_and hr rfl)]
  have hch := checkAccess_iff r token aces (some gm)
  simp only [hmx, hrq, Grants, ne_eq, not_true_eq_false, decide_false, Bool.false_eq_true,
    if_false, checkAccess] at hch
  have hie {c : Bool} {x : Option Mask} : (if c then x else none).isSome ↔ c ∧ x.isSome = true := by
    cases c <;> simp
  rw [hie, integrity_iff, hch]
  constructor
  · rintro ⟨hw, hd, ha⟩ i hi hbt
    exact ⟨hw i hi hbt, hd i hi hbt, privilegeGrants_bit token hbt ▸ ha i hi hbt⟩
  · intro h
    refine ⟨fun i hi hbt => (h i hi hbt).1, fun i hi hbt => (h i hi hbt).2.1, ?_⟩
    intro i hi hbt
    rw [privilegeGrants_bit token hbt]
    exact (h i hi hbt).2.2

lemma seAccessCheck_dacl {objectType : ObTypeIndex} {sd : SecurityDescriptor} {acl : Acl}
    (hpr : sd.control &&& 4#16 ≠ 0#16) (hdc : sd.dacl = some acl) (desired : Mask)
    (token : Token) (defaultDacl : Option (Option Acl)) :
    seAccessCheck objectType (some sd) desired token defaultDacl
      = if seCheckMandatoryIntegrity token sd.integrity desired then
          checkAccessWithGranted desired token (some acl.aces)
            (some (getGenericMappingForType objectType))
        else none := by
  unfold seAccessCheck
  simp only [if_neg hpr, hdc, map_some]
  cases seCheckMandatoryIntegrity token sd.integrity desired <;> rfl

/-- **The maximum** is what single requests are granted exactly if no write right in it is refused
for the integrity level, and no other right is added by a privilege. -/
theorem maximum_allowed_iff (objectType : ObTypeIndex) (sd : SecurityDescriptor) (acl : Acl)
    (token : Token) (defaultDacl : Option (Option Acl)) (hpresent : sd.control &&& 4#16 ≠ 0#16)
    (hdacl : sd.dacl = some acl) :
    (∀ r : Mask, r ≠ 0#32 → r &&& ~~~(getGenericMappingForType objectType).genericAll = 0#32 →
      ((seAccessCheck objectType (some sd) r token defaultDacl).isSome
        ↔ r &&& ~~~((seAccessCheck objectType (some sd) ACCESS_MAXIMUM_ALLOWED token
            defaultDacl).getD 0#32) = 0#32))
    ↔ ∀ aces ∈ acl.aces, ∀ i < 32, (getGenericMappingForType objectType).genericAll.getLsbD i →
      if WRITE_ACCESS_MASK.getLsbD i ∧ token.integrityLevelRid < sd.integrity then
        token.Allowed aces i → token.Denied aces i
      else (privilegeGrants token (BitVec.twoPow 32 i)).getLsbD i →
        token.Allowed aces i ∨ token.Denied aces i := by
  have hsp := genericAll_specific objectType
  simp only [seAccessCheck_dacl hpresent hdacl]
  generalize getGenericMappingForType objectType = gm at *
  rw [show seCheckMandatoryIntegrity token sd.integrity ACCESS_MAXIMUM_ALLOWED = true by
    simp [seCheckMandatoryIntegrity, ACCESS_MAXIMUM_ALLOWED, WRITE_ACCESS_MASK, GUARDED_RIGHTS],
    if_pos rfl]
  cases hac : acl.aces with
  | none =>
    refine iff_of_true (fun r hr _ => iff_of_false ?_ ?_) nofun
    · split <;> nofun
    · show ¬r &&& ~~~0#32 = 0#32
      rwa [BitVec.not_zero, BitVec.and_allOnes]
  | some aces =>
  simp only [mem_def, some_inj, forall_eq', and_not_eq_zero_iff]
  constructor
  · intro h i hi hin
    have hbs {q : Nat → Prop} : (∀ j < 32, (BitVec.twoPow 32 i).getLsbD j → q j) ↔ q i := by
      simp only [BitVec.getLsbD_twoPow, hi, decide_true, Bool.true_and, decide_eq_true_eq]
      exact ⟨fun h => h i hi rfl, fun h j _ hj => hj ▸ h⟩
    have hon := h (BitVec.twoPow 32 i) (ne_zero_iff.mpr ⟨i, hi, by simp [hi]⟩) (hbs.mpr hin)
    rw [specific_isSome hsp (and_not_eq_zero_iff.mpr (hbs.mpr hin)), hbs, hbs, maximum_bit _ _ _ hi] at hon
    split <;> tauto
  · intro h r _ hal
    rw [specific_isSome hsp (and_not_eq_zero_iff.mpr hal)]
    refine forall₃_congr fun i hi hr => ?_
    have hbt := h i hi (hal i hi hr)
    rw [maximum_bit _ _ _ hi]
    split at hbt <;> tauto

/-- Of an ACE for two rights, both are in the maximum. -/
theorem maximum_of_dacl : (seAccessCheck .Process (some ⟨4, 0, some (oneAce 3 1000)⟩) 3
      (someone [] []) none).isSome
    ↔ 3 &&& ~~~((seAccessCheck .Process (some ⟨4, 0, some (oneAce 3 1000)⟩) ACCESS_MAXIMUM_ALLOWED
      (someone [] []) none).getD 0#32) = 0#32 :=
  (maximum_allowed_iff .Process ⟨4, 0, some (oneAce 3 1000)⟩ _ (someone [] []) none (by decide)
    rfl).mpr (fun _ _ i _ _ => by
      rw [if_neg fun h => absurd h.2 (Nat.not_lt_zero _)]
      simp [privilegeGrants, Token.hasPrivilege, someone, privilegeAccessGrants]) 3 (by decide)
      (by decide)

/-- With SeTakeOwnershipPrivilege, WRITE_OWNER is granted but not part of the maximum. -/
theorem privilege_not_in_maximum :
    seAccessCheck .Process (some ⟨4, 0, some emptyDacl⟩) 0x80000#32 (someone [] [⟨9, 0, 2⟩]) none
      = some 0x80000#32
    ∧ seAccessCheck .Process (some ⟨4, 0, some emptyDacl⟩) ACCESS_MAXIMUM_ALLOWED
      (someone [] [⟨9, 0, 2⟩]) none = none := by decide +kernel

/-! ## Integrity -/

def Ace.mapGeneric (gm : GenericMapping) (ace : Ace) : Ace := { ace with mask := gm.mapGeneric ace.mask }

/-- A group without `SE_GROUP_ENABLED` becomes deny-only. -/
def TokenGroup.restrict (group : TokenGroup) : TokenGroup :=
  if group.attributes &&& 4#32 = 0#32 then { group with attributes := group.attributes ||| 0x10#32 }
  else group

def Token.restrict (token : Token) : Token :=
  { token with groups := token.groups.map TokenGroup.restrict }

lemma TokenGroup.restrict_sid (group : TokenGroup) : group.restrict.sid = group.sid := by
  unfold restrict
  split <;> rfl

lemma Token.denied_restrict (token : Token) (aces : List Ace) (i : Nat) :
    token.restrict.Denied aces i ↔ token.Denied aces i := by
  have hin (sid : Sid) : token.restrict.sidIn sid = token.sidIn sid := by
    unfold sidIn restrict
    simp only [List.any_map, Function.comp_def, TokenGroup.restrict_sid]
  simp only [Denied, DeniedBy, hin]

/-- **Disabled groups grant nothing** to a request that is allowed exactly if each right of it, or
some right for the maximum, is also given by an ACE for the user or an enabled group, or by a
privilege without the disabled groups. -/
theorem restricted_token_iff (desired : Mask) (token : Token) (dacl : Option Acl)
    (gm : Option GenericMapping) (h : checkAccess desired token (dacl.map Acl.aces) gm = true) :
    checkAccess desired token.restrict (dacl.map Acl.aces) gm = true
      ↔ ∀ acl ∈ dacl, ∀ aces ∈ acl.aces, if desired &&& ACCESS_MAXIMUM_ALLOWED ≠ 0#32 then
          ∃ i < 32, (maximum gm).getLsbD i ∧ ¬token.Denied aces i ∧ (token.restrict.Allowed aces i
            ∨ (privilegeGrants token.restrict (requested gm desired)).getLsbD i)
        else ∀ i < 32, (requested gm desired).getLsbD i → token.restrict.Allowed aces i
          ∨ (privilegeGrants token.restrict (requested gm desired)).getLsbD i := by
  cases dacl with
  | none => exact iff_of_true h nofun
  | some acl =>
    simp only [map_some, mem_def, some_inj, forall_eq'] at h ⊢
    cases hac : acl.aces with
    | none => simp [hac, checkAccess, checkAccessWithGranted] at h
    | some aces =>
      rw [hac, checkAccess_iff] at h
      simp only [checkAccess_iff, Grants, Token.denied_restrict, some_inj, forall_eq',
        decide_eq_true_eq]
      exact and_iff_right h.1

theorem restricted_token_user : checkAccess 1 (someone [⟨someGroup, 0⟩] []).restrict
    (some (oneAce 1 1000).aces) none = true :=
  (restricted_token_iff 1 (someone [⟨someGroup, 0⟩] []) (some (oneAce 1 1000)) none
    (by decide +kernel)).mpr fun acl hal aces hac => by
      obtain rfl := some.inj hal
      obtain rfl : [⟨.AccessAllowed, 1, (someone [] []).user⟩] = aces :=
        some.inj ((by decide +kernel : some _ = (oneAce 1 1000).aces).trans hac)
      rw [if_neg (by decide)]
      intro i _ hbt
      rw [show requested none 1 = 1 by decide] at hbt
      exact .inl ⟨_, mem_singleton_self _, ⟨rfl, by decide⟩, hbt⟩

/-- A group that is not enabled grants. -/
theorem disabled_group_grants :
    checkAccess 1 (someone [⟨someGroup, 0⟩] []) (some (oneAce 1 2000).aces) none = true
    ∧ checkAccess 1 (someone [⟨someGroup, 0⟩] []).restrict (some (oneAce 1 2000).aces) none = false :=
  by decide +kernel

end Nt61.Access
