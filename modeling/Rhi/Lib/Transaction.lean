import Mathlib.Tactic.Common

/-!
# Atomic transactions over an explicit store

The body of a transaction reads and writes the whole store and may fail.  A failed body is rolled
back.  A body that succeeds is handed to the commit, whose acknowledgement may be lost after it
took effect or before: the caller then learns only that the outcome is unknown.
-/

universe u v w

namespace Transactional

variable {Error : Type u} {State : Type v} {Value : Type w}

/-- Stops with `error` unless the condition holds. -/
def require (condition : Bool) (error : Error) : Except Error Unit :=
  if condition then .ok () else .error error

/-- Stops with `error` when the value is absent. -/
def orError (value : Option Value) (error : Error) : Except Error Value :=
  match value with
  | some present => .ok present
  | none => .error error

@[simp]
theorem require_eq_ok {condition : Bool} {error : Error} {done : Unit} :
    require condition error = .ok done ↔ condition = true := by
  cases condition <;> simp [require]

@[simp]
theorem orError_eq_ok {value : Option Value} {error : Error} {present : Value} :
    orError value error = .ok present ↔ value = some present := by
  cases value <;> simp [orError]

@[simp]
theorem bind_eq_ok {Result : Type w} {first : Except Error Value}
    {rest : Value → Except Error Result} {result : Result} :
    (first >>= rest) = .ok result ↔ ∃ value, first = .ok value ∧ rest value = .ok result := by
  cases first <;> simp [bind, Except.bind]

@[simp]
theorem pure_eq_ok {value result : Value} :
    (pure value : Except Error Value) = .ok result ↔ value = result := by
  simp [pure, Except.pure]

theorem require_eq_error {condition : Bool} {error failure : Error} :
    require condition error = .error failure ↔ condition = false ∧ error = failure := by
  cases condition <;> simp [require]

theorem orError_eq_error {value : Option Value} {error failure : Error} :
    orError value error = .error failure ↔ value = none ∧ error = failure := by
  cases value <;> simp [orError]

/-- A sequence fails where its first failing part does. -/
theorem bind_eq_error {Result : Type w} {first : Except Error Value}
    {rest : Value → Except Error Result} {failure : Error} :
    (first >>= rest) = .error failure ↔
      first = .error failure ∨ ∃ value, first = .ok value ∧ rest value = .error failure := by
  cases first <;> simp [bind, Except.bind]

theorem pure_ne_error {value : Value} {failure : Error} :
    (pure value : Except Error Value) ≠ .error failure := by
  simp [pure, Except.pure]

@[simp]
theorem mapError_eq_ok {Other : Type u} {result : Except Error Value} {convert : Error → Other}
    {value : Value} : result.mapError convert = .ok value ↔ result = .ok value := by
  cases result <;> simp [Except.mapError]

/-- How the commit of a transaction ends, as decided outside the program. -/
inductive Disposition where
  /-- The commit takes effect and the caller is told. -/
  | acknowledged
  /-- The transaction fails without effect before its commit. -/
  | aborted
  /-- The caller cannot tell whether the commit took effect. -/
  | unacknowledged (applied : Bool)
deriving DecidableEq, Repr

/-- Why a transaction returned no value. -/
inductive Failure (Error : Type u) where
  | operation (error : Error)
  | aborted
  | outcomeUnknown
deriving DecidableEq, Repr

variable {Report : Type u} {report : Failure Error → Report}

/-- Runs a body atomically; `report` is what the caller is told about a failure. -/
def transaction (report : Failure Error → Report) (disposition : Disposition)
    (body : State → Except Error (Value × State)) (store : State) :
    Except Report Value × State :=
  match disposition with
  | .aborted => (.error (report .aborted), store)
  | .acknowledged =>
      match body store with
      | .error error => (.error (report (.operation error)), store)
      | .ok (value, next) => (.ok value, next)
  | .unacknowledged applied =>
      match body store with
      | .error error => (.error (report (.operation error)), store)
      | .ok (_, next) => (.error (report .outcomeUnknown), if applied then next else store)

/-- A transaction leaves the store as it was, or as its body wrote it. -/
theorem transaction_store (report : Failure Error → Report) (disposition : Disposition)
    (body : State → Except Error (Value × State)) (store : State) :
    (transaction report disposition body store).2 = store ∨
      ∃ value next, body store = .ok (value, next) ∧
        (transaction report disposition body store).2 = next := by
  cases disposition with
  | aborted => exact .inl rfl
  | acknowledged =>
      simp only [transaction]
      cases result : body store with
      | error error => exact .inl rfl
      | ok value => exact .inr ⟨value.1, value.2, rfl, rfl⟩
  | unacknowledged applied =>
      simp only [transaction]
      cases result : body store with
      | error error => exact .inl rfl
      | ok value =>
          cases applied with
          | false => exact .inl rfl
          | true => exact .inr ⟨value.1, value.2, rfl, rfl⟩

/-- A value is returned only by an acknowledged commit of the body. -/
theorem transaction_ok {disposition : Disposition}
    {body : State → Except Error (Value × State)} {store : State} {value : Value}
    (returned : (transaction report disposition body store).1 = .ok value) :
    body store = .ok (value, (transaction report disposition body store).2) := by
  cases disposition with
  | aborted => cases returned
  | acknowledged =>
      simp only [transaction] at returned ⊢
      cases result : body store with
      | error error => simp [result] at returned
      | ok pair =>
          simp only [result] at returned ⊢
          cases returned
          rfl
  | unacknowledged applied =>
      simp only [transaction] at returned
      cases result : body store with
      | error error => simp [result] at returned
      | ok pair => simp [result] at returned

theorem body_of_transaction_ok {disposition : Disposition}
    {body : State → Except Error (Value × State)} {store next : State} {value : Value}
    (done : transaction report disposition body store = (.ok value, next)) :
    body store = .ok (value, next) := by
  have returned := transaction_ok (congrArg Prod.fst done)
  rwa [done] at returned

/-- An error other than the unknown outcome leaves the store as it was. -/
theorem transaction_store_of_error {disposition : Disposition}
    {body : State → Except Error (Value × State)} {store : State} {error : Report}
    (returned : (transaction report disposition body store).1 = .error error)
    (known : error ≠ report .outcomeUnknown) :
    (transaction report disposition body store).2 = store := by
  cases disposition with
  | aborted => rfl
  | acknowledged =>
      simp only [transaction] at returned ⊢
      cases result : body store with
      | error failure => rfl
      | ok pair => simp [result] at returned
  | unacknowledged applied =>
      simp only [transaction] at returned ⊢
      cases result : body store with
      | error failure => rfl
      | ok pair =>
          simp only [result, Except.error.injEq] at returned
          exact absurd returned.symm known

/-- What a transaction reports comes from its body or from the database. -/
theorem transaction_error {disposition : Disposition}
    {body : State → Except Error (Value × State)} {store : State} {error : Report}
    (returned : (transaction report disposition body store).1 = .error error) :
    error = report .aborted ∨ error = report .outcomeUnknown ∨
      ∃ failure, body store = .error failure ∧ error = report (.operation failure) := by
  cases disposition with
  | aborted =>
      cases returned
      exact .inl rfl
  | acknowledged =>
      simp only [transaction] at returned
      cases result : body store with
      | error failure =>
          rw [result] at returned
          cases returned
          exact .inr (.inr ⟨failure, rfl, rfl⟩)
      | ok pair =>
          rw [result] at returned
          cases returned
  | unacknowledged applied =>
      simp only [transaction] at returned
      cases result : body store with
      | error failure =>
          rw [result] at returned
          cases returned
          exact .inr (.inr ⟨failure, rfl, rfl⟩)
      | ok pair =>
          rw [result] at returned
          cases returned
          exact .inr (.inl rfl)

/-- A failing body makes every transaction fail without effect. -/
theorem transaction_of_error {disposition : Disposition}
    {body : State → Except Error (Value × State)} {store : State} {error : Error}
    (failed : body store = .error error) :
    (∃ failure, (transaction report disposition body store).1 = .error failure) ∧
      (transaction report disposition body store).2 = store := by
  cases disposition with
  | aborted => exact ⟨⟨_, rfl⟩, rfl⟩
  | acknowledged => simp [transaction, failed]
  | unacknowledged applied => simp [transaction, failed]

/-- A report that stands for one failure of the body is made exactly of that failure. -/
theorem transaction_operation_iff {disposition : Disposition}
    {body : State → Except Error (Value × State)} {store : State} {error : Error}
    (distinct : ∀ failure, report failure = report (.operation error) →
      failure = .operation error) :
    (transaction report disposition body store).1 = .error (report (.operation error)) ↔
      disposition ≠ .aborted ∧ body store = .error error := by
  have apart : ∀ failure, failure ≠ .operation error →
      (Except.error (report failure) : Except Report Value) ≠ .error (report (.operation error)) :=
    fun failure differs same => differs (distinct failure (Except.error.inj same))
  cases disposition with
  | aborted => simpa [transaction] using apart .aborted (by simp)
  | acknowledged =>
      cases result : body store with
      | ok value => simp [transaction, result]
      | error failure =>
          have same := fun isReport => distinct (.operation failure) isReport
          simp only [transaction, result, Except.error.injEq, ne_eq, reduceCtorEq,
            not_false_eq_true, true_and]
          exact ⟨fun isReport => Failure.operation.inj (same isReport), fun isError =>
            isError ▸ rfl⟩
  | unacknowledged applied =>
      cases result : body store with
      | ok value => simpa [transaction, result] using apart .outcomeUnknown (by simp)
      | error failure =>
          have same := fun isReport => distinct (.operation failure) isReport
          simp only [transaction, result, Except.error.injEq, ne_eq, reduceCtorEq,
            not_false_eq_true, true_and]
          exact ⟨fun isReport => Failure.operation.inj (same isReport), fun isError =>
            isError ▸ rfl⟩

/-- An acknowledged transaction of a body that succeeds returns its value. -/
theorem transaction_acknowledged {body : State → Except Error (Value × State)}
    {store next : State} {value : Value} (done : body store = .ok (value, next)) :
    transaction report .acknowledged body store = (.ok value, next) := by
  simp [transaction, done]

/-- A value is returned by an acknowledged commit alone. -/
theorem acknowledged_of_transaction_ok {disposition : Disposition}
    {body : State → Except Error (Value × State)} {store next : State} {value : Value}
    (done : transaction report disposition body store = (.ok value, next)) :
    disposition = .acknowledged := by
  cases disposition with
  | acknowledged => rfl
  | aborted => cases congrArg Prod.fst done
  | unacknowledged applied =>
      have returned := congrArg Prod.fst done
      simp only [transaction] at returned
      cases result : body store <;> simp [result] at returned

/-- A body that cannot succeed makes its transaction fail without effect. -/
theorem transaction_refused (disposition : Disposition)
    {body : State → Except Error (Value × State)} {store : State}
    (refused : ∀ value next, body store ≠ .ok (value, next)) :
    ∃ error, transaction report disposition body store = (.error error, store) := by
  cases result : body store with
  | ok pair => exact absurd result (refused pair.1 pair.2)
  | error error =>
      rcases transaction_of_error result with ⟨⟨failure, failed⟩, unchanged⟩
      exact ⟨failure, Prod.ext failed unchanged⟩

end Transactional
