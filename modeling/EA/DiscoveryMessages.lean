import EA.Lib.ByteString
import EA.Lib.Table

namespace EA

inductive ErrCode where
  | success | inputParamError | internalError | execFail | retryLater | notLeader
  | parseFromPbFail | parseToPbFail | unknownReqType | haveNotInit | peerNotEqual
deriving DecidableEq, Repr

structure NameSpaceInfo where
  namespaceName : Bytes := []
  namespaceId : Nat := 0
  version : Int := 0
  quota : Option Int := none
  resourceTag : Option Bytes := none
  byteSizePerRecord : Option Int := none
  replicaNum : Option Int := none
  regionSplitLines : Option Int := none
deriving DecidableEq, Inhabited

structure ZoneInfo where
  namespaceName : Bytes := []
  zone : Bytes := []
  zoneId : Nat := 0
  namespaceId : Nat := 0
  version : Int := 0
  quota : Option Int := none
  resourceTag : Option Bytes := none
  byteSizePerRecord : Option Int := none
  replicaNum : Option Int := none
  regionSplitLines : Option Int := none
deriving DecidableEq, Inhabited

structure ServletInfo where
  namespaceName : Bytes := []
  zone : Bytes := []
  servletName : Bytes := []
  servletId : Nat := 0
  zoneId : Nat := 0
  namespaceId : Nat := 0
  version : Int := 0
  resourceTag : Option Bytes := none
deriving DecidableEq, Inhabited

structure ServletInstance where
  address : Bytes := []
  namespaceName : Bytes := []
  zoneName : Bytes := []
  servletName : Bytes := []
  namespaceId : Nat := 0
  zoneId : Nat := 0
  servletId : Nat := 0
  version : Int := 0
  env : Option Bytes := none
  color : Option Bytes := none
  status : Option Int := none
  weight : Option Int := none
deriving DecidableEq, Inhabited

inductive RW where
  | read | write
deriving DecidableEq, Inhabited

def RW.toNat : RW → Nat
  | .read => 0
  | .write => 1

structure PrivilegeZone where
  zone : Bytes := []
  zoneId : Nat := 0
  zoneRw : Option RW := none
  force : Bool := false
deriving DecidableEq, Inhabited

structure PrivilegeServlet where
  zone : Bytes := []
  servletName : Bytes := []
  zoneId : Nat := 0
  servletId : Nat := 0
  servletRw : Option RW := none
  force : Bool := false
deriving DecidableEq, Inhabited

structure UserPrivilege where
  username : Bytes := []
  password : Option Bytes := none
  namespaceName : Bytes := []
  namespaceId : Nat := 0
  version : Int := 0
  privilegeZone : List PrivilegeZone := []
  privilegeServlet : List PrivilegeServlet := []
  ip : List Bytes := []
  needAuthAddr : Option Bool := none
  resourceTag : Option Bytes := none
deriving DecidableEq, Inhabited

/-- Both the `Version` message and `turbo::ModuleVersion`, ordered lexicographically. -/
structure ModuleVersion where
  major : Int := 0
  minor : Int := 0
  patch : Int := 0
deriving DecidableEq, Inhabited

instance : Ord ModuleVersion where
  compare := compareLex (compareOn ModuleVersion.major)
    (compareLex (compareOn ModuleVersion.minor) (compareOn ModuleVersion.patch))

instance : Std.TransOrd ModuleVersion :=
  inferInstanceAs (Std.TransCmp (compareLex (compareOn ModuleVersion.major)
    (compareLex (compareOn ModuleVersion.minor) (compareOn ModuleVersion.patch))))

instance : Std.LawfulEqOrd ModuleVersion where
  eq_of_compare {a b} h := by
    obtain ⟨hmajor, h⟩ := Ordering.then_eq_eq.mp h
    obtain ⟨hminor, hpatch⟩ := Ordering.then_eq_eq.mp h
    obtain ⟨⟩ := a
    obtain ⟨⟩ := b
    simp only [compareOn, Std.LawfulEqOrd.compare_eq_iff_eq] at hmajor hminor hpatch
    rw [hmajor, hminor, hpatch]

def decimal (n : Int) : Bytes :=
  let digits := (Nat.toDigits 10 n.natAbs).map fun c => UInt8.ofNat c.toNat
  if n < 0 then 45 :: digits else digits

theorem toNat_digit {n : Nat} {d : Char} (hd : d ∈ Nat.toDigits 10 n) :
    (UInt8.ofNat d.toNat).toNat = d.toNat ∧ 48 ≤ d.toNat ∧ d.toNat ≤ 57 := by
  have isDigit := Nat.isDigit_of_mem_toDigits (by omega) (by omega) hd
  have range : 48 ≤ d.toNat ∧ d.toNat ≤ 57 := Char.isDigit_iff_toNat.mp isDigit
  refine ⟨?_, range⟩
  simp
  omega

theorem digit_range {n : Nat} {c : UInt8}
    (hc : c ∈ (Nat.toDigits 10 n).map fun c => UInt8.ofNat c.toNat) : 48 ≤ c ∧ c ≤ 57 := by
  obtain ⟨d, hd, rfl⟩ := List.mem_map.mp hc
  obtain ⟨eq, low, high⟩ := toNat_digit hd
  simp only [UInt8.le_iff_toNat_le, eq]
  exact ⟨low, high⟩

theorem digits_injective {n m : Nat}
    (h : ((Nat.toDigits 10 n).map fun c => UInt8.ofNat c.toNat) =
      (Nat.toDigits 10 m).map fun c => UInt8.ofNat c.toNat) : n = m := by
  have back : ∀ n, ((Nat.toDigits 10 n).map fun c => UInt8.ofNat c.toNat).map
      (fun b => Char.ofNat b.toNat) = Nat.toDigits 10 n := by
    intro n
    rw [List.map_map]
    conv_rhs => rw [← List.map_id (Nat.toDigits 10 n)]
    apply List.map_congr_left
    intro d hd
    have eq := (toNat_digit hd).1
    simp only [Function.comp, eq, Char.ofNat_toNat, id]
  have chars : Nat.toDigits 10 n = Nat.toDigits 10 m := by
    rw [← back n, h, back m]
  have value := congrArg (fun cs => Nat.ofDigitChars 10 cs 0) chars
  simpa only [Nat.ofDigitChars_ten_toDigits] using value

theorem mem_decimal {n : Int} {c : UInt8} (h : c ∈ decimal n) : c = 45 ∨ (48 ≤ c ∧ c ≤ 57) := by
  unfold decimal at h
  split at h
  next =>
    rcases List.mem_cons.mp h with sign | h
    · exact Or.inl sign
    · exact Or.inr (digit_range h)
  next => exact Or.inr (digit_range h)

theorem decimal_injective : Function.Injective decimal := by
  have unsigned : ∀ {n : Nat} {rest : Bytes},
      ((Nat.toDigits 10 n).map fun c => UInt8.ofNat c.toNat) ≠ 45 :: rest := by
    intro n rest h
    have minus := digit_range (h ▸ List.mem_cons_self : (45 : UInt8) ∈ _)
    exact absurd minus.1 (by decide)
  intro n m h
  unfold decimal at h
  split at h
  next neg =>
    split at h
    next neg' =>
      have abs := digits_injective (List.cons.inj h).2
      omega
    next => exact absurd h.symm unsigned
  next pos =>
    split at h
    next => exact absurd h unsigned
    next pos' =>
      have abs := digits_injective h
      omega

/-- `ModuleVersion::to_string`. -/
def ModuleVersion.toBytes (v : ModuleVersion) : Bytes :=
  decimal v.major ++ 46 :: decimal v.minor ++ 46 :: decimal v.patch

structure ConfigInfo where
  name : Bytes := []
  version : Option ModuleVersion := none
  content : Bytes := []
  type : Int := 0
  time : Int := 0
deriving DecidableEq, Inhabited

inductive OpType where
  | opCreateUser | opDropUser | opAddPrivilege | opDropPrivilege
  | opCreateNamespace | opDropNamespace | opModifyNamespace
  | opCreateZone | opDropZone | opModifyZone
  | opCreateServlet | opDropServlet | opModifyServlet
  | opCreateConfig | opRemoveConfig
  | opAddInstance | opDropInstance | opUpdateInstance
  | other
deriving DecidableEq

structure DiscoveryManagerRequest where
  opType : OpType
  namespaceInfo : NameSpaceInfo := {}
  zoneInfo : ZoneInfo := {}
  servletInfo : ServletInfo := {}
  instanceInfo : ServletInstance := {}
  userPrivilege : UserPrivilege := {}
  configInfo : ConfigInfo := {}
deriving DecidableEq

/-- A value of the meta database: a serialised message, or raw bytes. Parsing
gives back the message that was serialised. -/
inductive MetaValue where
  | namespaceInfo (info : NameSpaceInfo)
  | zoneInfo (info : ZoneInfo)
  | servletInfo (info : ServletInfo)
  | instanceInfo (info : ServletInstance)
  | userPrivilege (user : UserPrivilege)
  | configInfo (info : ConfigInfo)
  | raw (bytes : Bytes)
deriving DecidableEq

end EA
