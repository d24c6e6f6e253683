import EA.TsoBound
import EA.TsoNode
import EA.TsoTerm

namespace EA

/-- The loop of `gen_tso`, with `left` attempts to go. Other threads make `sleep i obj`
of `_tso_obj` while the call sleeps after attempt `i`. -/
def genTsoLoop (count : Int64) (sleep : Nat → TsoObj → TsoObj) :
    Nat → Nat → TsoObj → TsoObj × Option TsoTimestamp
  | 0, _, obj => (obj, none)
  | left + 1, i, obj =>
    match genTsoAttempt count obj with
    | some (start, obj') => (obj', some start)
    | none => genTsoLoop count sleep left (i + 1) (sleep i obj)

/-- The whole of `gen_tso`. -/
def genTso (count : Int64) (isHealty : Bool) (sleep : Nat → TsoObj → TsoObj) (obj : TsoObj) :
    TsoObj × TsoResponse :=
  match genTsoCheck count isHealty with
  | some response => (obj, response)
  | none =>
    match genTsoLoop count sleep genTsoRetries 0 obj with
    | (obj', some start) => (obj', genTsoGranted start count)
    | (obj', none) => (obj', genTsoFailed)

/-- What attempt `i` finds when all earlier ones have failed. -/
def TsoObj.seen (sleep : Nat → TsoObj → TsoObj) (obj : TsoObj) : Nat → TsoObj
  | 0 => obj
  | i + 1 => sleep i (TsoObj.seen sleep obj i)

/-- Nobody else moves `_tso_obj`. -/
theorem seen_undisturbed (obj : TsoObj) (i : Nat) : obj.seen (fun _ obj => obj) i = obj := by
  induction i with
  | zero => rfl
  | succ i ih => exact ih

/-- A physical part is there and the logical part is inside its 18 bits. -/
def TsoObj.InRange (obj : TsoObj) : Prop :=
  0 < obj.currentTimestamp.physical ∧ 0 ≤ obj.currentTimestamp.logical ∧
    obj.currentTimestamp.logical < maxLogical

/-- `(physical << 18) + logical`. -/
def TsoTimestamp.packed (t : TsoTimestamp) : Int := t.physical.toInt * 2 ^ 18 + t.logical.toInt

/-- The values that an answer with this start and this count hands out. -/
def grantedValues (start : TsoTimestamp) (count : Int64) : List Int :=
  (List.range count.toInt.toNat).map fun i : Nat => start.packed + i

/-- What a successful answer took from the state `met`. -/
structure GrantedFrom (count : Int64) (met : TsoObj) (out : TsoObj × TsoResponse) : Prop where
  positive : 0 < count
  start : out.2.startTimestamp = some met.currentTimestamp
  amount : out.2.count = some count
  save : out.1.lastSavePhysical = met.lastSavePhysical
  physical : out.1.currentTimestamp.physical = met.currentTimestamp.physical
  sum : out.1.currentTimestamp.logical.toInt = met.currentTimestamp.logical.toInt + count.toInt
  below : out.1.currentTimestamp.logical.toInt < 2 ^ 18
  ascends : ∀ before : List Int, before.Pairwise (· < ·) →
    (∀ v ∈ before, v < met.currentTimestamp.packed) →
    (before ++ grantedValues met.currentTimestamp count).Pairwise (· < ·) ∧
      ∀ v ∈ before ++ grantedValues met.currentTimestamp count,
        v < out.1.currentTimestamp.packed

/-- Success takes a positive count from a state that the loop met; any other answer
leaves `_tso_obj` to the other threads. -/
structure GenTsoSound (count : Int64) (isHealty : Bool) (sleep : Nat → TsoObj → TsoObj)
    (obj : TsoObj) : Prop where
  granted : (genTso count isHealty sleep obj).2.errcode = some .success →
    ∃ i, i < genTsoRetries ∧
      GrantedFrom count (obj.seen sleep i) (genTso count isHealty sleep obj)
  unchanged : (genTso count isHealty sleep obj).2.errcode ≠ some .success →
    (genTso count isHealty sleep obj).1 = obj ∨
      (genTso count isHealty sleep obj).1 = obj.seen sleep genTsoRetries

/-- A healthy node is asked for a count that is not negative and that no state the
loop can meet adds up past 2^63 - 1. -/
def CountFits (count : Int64) (isHealty : Bool) (sleep : Nat → TsoObj → TsoObj) (obj : TsoObj) :
    Prop :=
  isHealty = true → 0 ≤ count ∧ ∀ i, i < genTsoRetries → NoLogicalOverflow count (obj.seen sleep i)

/-- The loop stops at the first attempt that succeeds, or has made all of them. -/
theorem genTsoLoop_seen (count : Int64) (sleep : Nat → TsoObj → TsoObj) (obj : TsoObj)
    (left i : Nat) :
    (∃ j start obj', i ≤ j ∧ j < i + left ∧
      genTsoAttempt count (obj.seen sleep j) = some (start, obj') ∧
      genTsoLoop count sleep left i (obj.seen sleep i) = (obj', some start)) ∨
    (∀ j, i ≤ j → j < i + left → genTsoAttempt count (obj.seen sleep j) = none) ∧
      genTsoLoop count sleep left i (obj.seen sleep i) = (obj.seen sleep (i + left), none) := by
  induction left generalizing i with
  | zero =>
    refine Or.inr ⟨fun j ge lt => ?_, rfl⟩
    omega
  | succ left ih =>
    cases attempt : genTsoAttempt count (obj.seen sleep i) with
    | some granted =>
      obtain ⟨start, obj'⟩ := granted
      refine Or.inl ⟨i, start, obj', le_refl i, by omega, attempt, ?_⟩
      simp only [genTsoLoop, attempt]
    | none =>
      have later : genTsoLoop count sleep (left + 1) i (obj.seen sleep i) =
          genTsoLoop count sleep left (i + 1) (obj.seen sleep (i + 1)) := by
        rw [genTsoLoop, attempt]
        rfl
      rw [later]
      rcases ih (i + 1) with ⟨j, start, obj', ge, lt, success, out⟩ | ⟨failed, out⟩
      · exact Or.inl ⟨j, start, obj', by omega, by omega, success, out⟩
      · refine Or.inr ⟨fun j ge lt => ?_, ?_⟩
        · by_cases first : j = i
          · rw [first]
            exact attempt
          · exact failed j (by omega) (by omega)
        · rw [out, Nat.add_right_comm, Nat.add_assoc]

/-- In range, an attempt fails only for a sum that is not below the logical limit. -/
theorem genTsoAttempt_of_small {count : Int64} {obj : TsoObj} (range : obj.InRange)
    (small : (obj.currentTimestamp.logical + count).toInt < 2 ^ 18) :
    ∃ granted, genTsoAttempt count obj = some granted := by
  have limit : maxLogical.toInt = 2 ^ 18 := by decide
  have nonzero : obj.currentTimestamp.physical ≠ 0 := by
    intro zero
    have positive := range.1
    rw [zero] at positive
    exact absurd positive (by decide)
  have fits : obj.currentTimestamp.logical + count < maxLogical := by
    rw [Int64.lt_iff_toInt_lt, limit]
    exact small
  exact ⟨_, genTsoAttempt_eq_some.mpr ⟨nonzero, fits, rfl, rfl⟩⟩

theorem genTsoAttempt_negative {count : Int64} {obj : TsoObj} (range : obj.InRange)
    (negative : count < 0) : ∃ granted, genTsoAttempt count obj = some granted := by
  have nonneg := range.2.1
  have below := range.2.2
  have limit : maxLogical.toInt = 2 ^ 18 := by decide
  have lower := Int64.le_toInt count
  rw [Int64.lt_iff_toInt_lt, Int64.toInt_zero] at negative
  rw [Int64.le_iff_toInt_le, Int64.toInt_zero] at nonneg
  rw [Int64.lt_iff_toInt_lt, limit] at below
  refine genTsoAttempt_of_small range ?_
  rw [toInt_add_of_range (by omega) (by omega)]
  omega

/-- A sum past 2^63 - 1 comes out negative and passes the test against the limit. -/
theorem genTsoAttempt_overflow {count : Int64} {obj : TsoObj} (range : obj.InRange)
    (high : ¬ NoLogicalOverflow count obj) :
    ∃ granted, genTsoAttempt count obj = some granted := by
  unfold NoLogicalOverflow at high
  have logical := toInt_range obj.currentTimestamp.logical
  have counted := toInt_range count
  have sum := toInt_range (obj.currentTimestamp.logical + count)
  have wraps := toInt_add_cases obj.currentTimestamp.logical count
  refine genTsoAttempt_of_small range ?_
  omega

theorem packed_add {t t' : TsoTimestamp} {count : Int64} (physical : t'.physical = t.physical)
    (sum : t'.logical.toInt = t.logical.toInt + count.toInt) :
    t'.packed = t.packed + count.toInt := by
  rw [TsoTimestamp.packed, TsoTimestamp.packed, physical, sum]
  omega

theorem mem_grantedValues {start : TsoTimestamp} {count : Int64} {v : Int}
    (h : v ∈ grantedValues start count) :
    start.packed ≤ v ∧ v < start.packed + count.toInt := by
  obtain ⟨i, mem, rfl⟩ := List.mem_map.mp h
  have lt := List.mem_range.mp mem
  omega

theorem grantedValues_ascend (start : TsoTimestamp) (count : Int64) :
    (grantedValues start count).Pairwise (· < ·) := by
  refine List.Pairwise.map _ ?_ List.pairwise_lt_range
  intro i j lt
  omega

/-- An attempt with a positive count and no overflow grants what it should. -/
theorem grantedFrom_attempt {count : Int64} {met obj : TsoObj} {start : TsoTimestamp}
    (positive : 0 < count) (fits : NoLogicalOverflow count met)
    (attempt : genTsoAttempt count met = some (start, obj)) :
    GrantedFrom count met (obj, genTsoGranted start count) := by
  obtain ⟨_, below, rfl, rfl⟩ := genTsoAttempt_eq_some.mp attempt
  have limit : maxLogical.toInt = 2 ^ 18 := by decide
  have sum := toInt_add_of_lt positive fits
  have bound : (met.currentTimestamp.logical + count).toInt < 2 ^ 18 := by
    rw [← limit, ← Int64.lt_iff_toInt_lt]
    exact below
  refine ⟨positive, rfl, rfl, rfl, rfl, sum, bound, ?_⟩
  intro before sorted lower
  have top : (⟨met.currentTimestamp.physical, met.currentTimestamp.logical + count⟩ :
      TsoTimestamp).packed = met.currentTimestamp.packed + count.toInt := packed_add rfl sum
  have more : 0 < count.toInt := by simpa [Int64.lt_iff_toInt_lt] using positive
  rw [top]
  constructor
  · refine List.pairwise_append.mpr ⟨sorted, grantedValues_ascend _ _, ?_⟩
    intro v hv w hw
    have left := lower v hv
    have right := (mem_grantedValues hw).1
    omega
  · intro v hv
    rcases List.mem_append.mp hv with old | new
    · have left := lower v old
      omega
    · exact (mem_grantedValues new).2

/-- The answer says success exactly when the check lets the call in and an attempt
succeeds. -/
theorem genTso_cases (count : Int64) (isHealty : Bool) (sleep : Nat → TsoObj → TsoObj)
    (obj : TsoObj) :
    ((count = 0 ∨ isHealty = false) ∧ (genTso count isHealty sleep obj).1 = obj ∧
      (genTso count isHealty sleep obj).2.errcode ≠ some .success) ∨
    (count ≠ 0 ∧ isHealty = true ∧ ∃ i start obj', i < genTsoRetries ∧
      genTsoAttempt count (obj.seen sleep i) = some (start, obj') ∧
      genTso count isHealty sleep obj = (obj', genTsoGranted start count)) ∨
    (count ≠ 0 ∧ isHealty = true ∧
      (∀ i, i < genTsoRetries → genTsoAttempt count (obj.seen sleep i) = none) ∧
      genTso count isHealty sleep obj = (obj.seen sleep genTsoRetries, genTsoFailed)) := by
  by_cases zero : count = 0
  · refine Or.inl ⟨Or.inl zero, ?_⟩
    simp [genTso, genTsoCheck, zero]
  · cases isHealty with
    | false =>
      refine Or.inl ⟨Or.inr rfl, ?_⟩
      simp [genTso, genTsoCheck, zero]
    | true =>
      have entered : genTsoCheck count true = none := by simp [genTsoCheck, zero]
      have first : obj.seen sleep 0 = obj := rfl
      rcases genTsoLoop_seen count sleep obj genTsoRetries 0 with
        ⟨i, start, obj', _, lt, attempt, out⟩ | ⟨failed, out⟩
      · rw [first] at out
        refine Or.inr (Or.inl ⟨zero, rfl, i, start, obj', by omega, attempt, ?_⟩)
        simp only [genTso, entered, out]
      · rw [first, Nat.zero_add] at out
        refine Or.inr (Or.inr ⟨zero, rfl, fun i lt => failed i (by omega) (by omega), ?_⟩)
        simp only [genTso, entered, out]

/-- `gen_tso` counts as it should if and only if the count fits. -/
theorem gen_tso_sound_iff {count : Int64} {isHealty : Bool} {sleep : Nat → TsoObj → TsoObj}
    {obj : TsoObj} (range : ∀ i, i < genTsoRetries → (obj.seen sleep i).InRange) :
    GenTsoSound count isHealty sleep obj ↔ CountFits count isHealty sleep obj := by
  rcases genTso_cases count isHealty sleep obj with
    ⟨refused, same, code⟩ | ⟨nonzero, healty, i, start, obj', lt, attempt, out⟩ |
      ⟨nonzero, healty, failed, out⟩
  · refine iff_of_true ⟨fun success => absurd success code, fun _ => Or.inl same⟩ ?_
    intro healty
    have zero : count = 0 := refused.resolve_right (by simp [healty])
    subst zero
    refine ⟨Int64.le_refl 0, fun i _ => ?_⟩
    have small := toInt_range (obj.seen sleep i).currentTimestamp.logical
    rw [NoLogicalOverflow, Int64.toInt_zero]
    omega
  · constructor
    · intro sound
      obtain ⟨j, hj, granted⟩ := sound.granted (by rw [out]; rfl)
      have positive := granted.positive
      have sum := granted.sum
      have below := granted.below
      have nonneg := (range j hj).2.1
      rw [Int64.le_iff_toInt_le, Int64.toInt_zero] at nonneg
      refine fun _ => ⟨Int64.le_of_lt positive, fun k hk => ?_⟩
      -- a count that was granted once is below 2^18
      have bounded := (range k hk).2.2
      have limit : maxLogical.toInt = 2 ^ 18 := by decide
      rw [Int64.lt_iff_toInt_lt, limit] at bounded
      unfold NoLogicalOverflow
      omega
    · intro fits
      obtain ⟨nonneg, sums⟩ := fits healty
      have positive : 0 < count := by
        rw [Int64.le_iff_toInt_le] at nonneg
        rw [Int64.lt_iff_toInt_lt]
        have ne : count.toInt ≠ (0 : Int64).toInt := fun eq => nonzero (Int64.toInt_inj.mp eq)
        omega
      have granted := grantedFrom_attempt positive (sums i lt) attempt
      rw [← out] at granted
      refine ⟨fun _ => ⟨i, lt, granted⟩, fun code => absurd ?_ code⟩
      rw [out]
      rfl
  · have code : (genTso count isHealty sleep obj).2.errcode ≠ some .success := by
      rw [out]
      simp [genTsoFailed]
    refine iff_of_true ⟨fun success => absurd success code, fun _ => Or.inr (by rw [out])⟩ ?_
    intro _
    constructor
    · by_contra negative
      have first : 0 < genTsoRetries := by decide
      obtain ⟨granted, attempt⟩ :=
        genTsoAttempt_negative (range 0 first) (Int64.not_le.mp negative)
      rw [failed 0 first] at attempt
      cases attempt
    · intro i lt
      by_contra high
      obtain ⟨granted, attempt⟩ := genTsoAttempt_overflow (range i lt) high
      rw [failed i lt] at attempt
      cases attempt

def fiveGranted : TsoObj := ⟨⟨1000, 5⟩, 4000⟩

theorem fiveGranted_inRange (i : Nat) : (fiveGranted.seen (fun _ obj => obj) i).InRange := by
  rw [seen_undisturbed, TsoObj.InRange]
  decide

/-- Three timestamps after the leader's logical part 5, granted in the first attempt. -/
theorem three_granted : GenTsoSound 3 true (fun _ obj => obj) fiveGranted := by
  refine (gen_tso_sound_iff fun i _ => fiveGranted_inRange i).mpr fun _ => ?_
  refine ⟨by decide, fun i _ => ?_⟩
  rw [seen_undisturbed]
  decide

/-- A count of -3 is granted and takes the logical part from 5 back to 2. -/
theorem negative_count_granted :
    ¬ ∀ (count : Int64) (isHealty : Bool) (sleep : Nat → TsoObj → TsoObj) (obj : TsoObj),
      (∀ i, i < genTsoRetries → (obj.seen sleep i).InRange) →
      GenTsoSound count isHealty sleep obj := by
  intro sound
  have fits := sound (-3) true (fun _ obj => obj) fiveGranted fun i _ => fiveGranted_inRange i
  obtain ⟨i, _, granted⟩ := fits.granted (by decide)
  exact absurd granted.positive (by decide)

end EA
