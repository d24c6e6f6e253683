import EA.MetaKeys

namespace EA

abbrev MetaDb := Table Bytes MetaValue

/-- One put (`some`) or delete (`none`) of a write batch. -/
abbrev BatchOp := Bytes × Option MetaValue

def BatchOp.apply (db : MetaDb) (op : BatchOp) : MetaDb :=
  match op.2 with
  | some value => db.insert op.1 value
  | none => db.erase op.1

structure Reply where
  errcode : ErrCode
  errmsg : String
deriving DecidableEq

/-- What a handler does once it has looked at memory. The early returns refuse.
The others serialise a message if they write one, hand a batch to the database,
and only then update memory. A subscript on the way may already have left a
default value in memory: that is the memory of `refuse`, and `touched` in a
write that fails. -/
inductive Plan (σ : Type) where
  | refuse (errcode : ErrCode) (errmsg : String) (memory : σ)
  | write (value : Option MetaValue) (batch : List BatchOp) (dbError : String)
      (touched memory : σ)

namespace Plan

variable {σ τ : Type}

def map (f : σ → τ) : Plan σ → Plan τ
  | .refuse errcode errmsg memory => .refuse errcode errmsg (f memory)
  | .write value batch dbError touched memory =>
    .write value batch dbError (f touched) (f memory)

def batch : Plan σ → List BatchOp
  | .refuse _ _ _ => []
  | .write _ batch _ _ _ => batch

@[simp] theorem batch_map (f : σ → τ) (p : Plan σ) : (p.map f).batch = p.batch := by
  cases p <;> rfl

/-- `serialises` is `SerializeToString`, `dbOk` the outcome of the database call. -/
def run (serialises : MetaValue → Bool) (dbOk : Bool) (db : MetaDb) :
    Plan σ → (MetaDb × σ) × Reply
  | .refuse errcode errmsg memory => ((db, memory), ⟨errcode, errmsg⟩)
  | .write value batch dbError touched memory =>
    if value.any fun v => !serialises v then
      ((db, touched), ⟨.parseToPbFail, "serializeToArray fail"⟩)
    else if !dbOk then ((db, touched), ⟨.internalError, dbError⟩)
    else ((batch.foldl BatchOp.apply db, memory), ⟨.success, "success"⟩)

/-- The two ways a handler can end. -/
inductive Ends (serialises : MetaValue → Bool) (dbOk : Bool) (db : MetaDb) (plan : Plan σ) :
    (MetaDb × σ) × Reply → Prop
  | refused (errcode : ErrCode) (errmsg : String) (memory : σ)
      (h : plan = .refuse errcode errmsg memory) :
      Ends serialises dbOk db plan ((db, memory), ⟨errcode, errmsg⟩)
  | failed (value : Option MetaValue) (batch : List BatchOp) (dbError : String)
      (touched memory : σ) (reply : Reply)
      (h : plan = .write value batch dbError touched memory)
      (fails : value.any (fun v => !serialises v) = true ∨ dbOk = false)
      (code : reply.errcode ≠ .success) :
      Ends serialises dbOk db plan ((db, touched), reply)
  | written (value : Option MetaValue) (batch : List BatchOp) (dbError : String)
      (touched memory : σ) (h : plan = .write value batch dbError touched memory)
      (fits : value.any (fun v => !serialises v) = false) (works : dbOk = true) :
      Ends serialises dbOk db plan ((batch.foldl BatchOp.apply db, memory), ⟨.success, "success"⟩)

theorem run_ends (serialises : MetaValue → Bool) (dbOk : Bool) (db : MetaDb) (plan : Plan σ) :
    plan.Ends serialises dbOk db (plan.run serialises dbOk db) := by
  cases plan with
  | refuse errcode errmsg memory => exact .refused errcode errmsg memory rfl
  | write value batch dbError touched memory =>
    simp only [run]
    split
    next bad => exact .failed value batch dbError touched memory _ rfl (Or.inl bad) (by simp)
    next fits =>
      split
      next down =>
        exact .failed value batch dbError touched memory _ rfl (Or.inr (by simpa using down))
          (by simp)
      next works =>
        exact .written value batch dbError touched memory rfl (by simpa using fits)
          (by simpa using works)

theorem run_map (f : σ → τ) (serialises : MetaValue → Bool) (dbOk : Bool) (db : MetaDb)
    (plan : Plan σ) :
    (plan.map f).run serialises dbOk db =
      (((plan.run serialises dbOk db).1.1, f (plan.run serialises dbOk db).1.2),
        (plan.run serialises dbOk db).2) := by
  cases plan with
  | refuse => rfl
  | write value batch dbError touched memory =>
    simp only [map, run]
    split
    next => rfl
    next => split <;> rfl

end Plan

end EA
