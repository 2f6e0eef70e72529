import Rhi.Admin.Operations

/-!
# What the journal guarantees

The journal keeps to its bounds, so that an admitted operation can be completed; it keeps a receipt
until it expires, so that an operation is completed once; and it refuses the reuse of an identity.
-/

namespace Rhi

open Relational Transactional

section Invariants

variable [Sha256] [ResponseModels] {Domain : Type}

/-- What every step of the journal keeps, every call keeps. -/
theorem JournalCall.invariant {property : Table adminOperations → Prop}
    (kept : ∀ {now before after}, JournalStep now before after → property before → property after)
    (call : JournalCall Domain) (store : Journaled Domain) (initially : property store.journal) :
    property (call.apply store).journal := by
  have evolves := call.evolves store
  cases instant : call.instant with
  | none =>
      rw [instant] at evolves
      rw [evolves]
      exact initially
  | some now =>
      rw [instant] at evolves
      exact Evolves.invariant kept evolves initially

/-- What every step of the journal keeps, every run keeps. -/
theorem journal_invariant {property : Table adminOperations → Prop}
    (kept : ∀ {now before after}, JournalStep now before after → property before → property after)
    (initially : property .empty) (domain : Domain) (calls : List (JournalCall Domain)) :
    property (journalExec calls (.initial domain)).journal :=
  Transition.exec_invariant (fun store : Journaled Domain => property store.journal)
    (JournalCall.invariant kept) calls initially

theorem bounded_exec (domain : Domain) (calls : List (JournalCall Domain)) :
    Bounded (journalExec calls (.initial domain)).journal :=
  journal_invariant JournalStep.bounded
    ⟨Nat.zero_le _, Nat.zero_le _, fun row rowMem => by cases rowMem⟩ domain calls

/-- A completed row expires when its retention has passed. -/
def Dated (journal : Table adminOperations) : Prop :=
  ∀ row ∈ journal.rows, row.state = .completed →
    ∃ completed, row.completedAt = some completed ∧
      row.expiresAt = some (completed + completedRetention)

omit [ResponseModels] in
theorem JournalStep.dated {now : Nat} {before after : Table adminOperations}
    (step : JournalStep now before after) (dated : Dated before) : Dated after := by
  intro row rowMem completed
  rcases step.completed_origin rowMem completed with old | new
  · exact dated row old completed
  · exact ⟨now, new⟩

theorem dated_exec (domain : Domain) (calls : List (JournalCall Domain)) :
    Dated (journalExec calls (.initial domain)).journal :=
  journal_invariant JournalStep.dated (fun row rowMem => by cases rowMem) domain calls

/-- A receipt stays until a call is made after its expiry. -/
theorem completed_exec {row : OperationRow} (completed : row.state = .completed)
    (calls : List (JournalCall Domain)) {store : Journaled Domain}
    (rowMem : row ∈ store.journal.rows) :
    row ∈ (journalExec calls store).journal.rows ∨
      ∃ call ∈ calls, ∃ now, call.instant = some now ∧ row.expired now = true := by
  induction calls generalizing store with
  | nil => exact .inl rowMem
  | cons call calls ih =>
      have evolves := call.evolves store
      have kept : row ∈ (call.apply store).journal.rows ∨
          ∃ now, call.instant = some now ∧ row.expired now = true := by
        cases instant : call.instant with
        | none =>
            rw [instant] at evolves
            rw [evolves]
            exact .inl rowMem
        | some now =>
            rw [instant] at evolves
            rcases Evolves.completed_kept evolves rowMem completed with kept | expired
            · exact .inl kept
            · exact .inr ⟨now, rfl, expired⟩
      rcases kept with kept | ⟨now, instant, expired⟩
      · rcases ih kept with still | ⟨other, otherMem, lost⟩
        · exact .inl still
        · exact .inr ⟨other, List.mem_cons_of_mem _ otherMem, lost⟩
      · exact .inr ⟨call, List.mem_cons_self, now, instant, expired⟩

end Invariants

section Reading

variable [Sha256] [ResponseModels]

omit [Sha256] [ResponseModels] in
theorem decodeOperation_total {journal : Table adminOperations} {row : OperationRow}
    (bounded : Bounded journal) (rowMem : row ∈ journal.rows) :
    ∃ stored, decodeOperation row = .ok stored := by
  have checked := journal.checked row rowMem
  simp only [adminOperations, Bool.and_eq_true] at checked
  have shaped := checked.2
  unfold decodeOperation
  rw [if_pos (bounded.mutations row rowMem)]
  unfold OperationRow.shaped at shaped
  split at shaped
  · simp_all
  · simp_all
  · cases shaped

omit [Sha256] [ResponseModels] in
/-- Whether a row was journaled for another request. -/
def OperationRow.Other (row : OperationRow) (binding : RequestBinding) : Prop :=
  row.operationId = binding.operationId ∧
    (row.route ≠ binding.route ∨ row.requestSha256 ≠ binding.requestSha256)

/-- The admission of a request whose identity is retained. -/
theorem prepareOperation_of_retained {binding : RequestBinding} {now : UnixMilliseconds}
    {journal : Table adminOperations} {row : OperationRow} {stored : StoredOperation}
    (rowMem : row ∈ journal.rows) (same : row.operationId = binding.operationId)
    (retained : row.expired now.get = false) (decoded : decodeOperation row = .ok stored) :
    prepareOperation binding now journal =
      (admitStored binding stored).map fun admission =>
      (admission, pruneExpired now.get journal) := by
  have read := readOperation_eq (mem_pruneExpired_of_unexpired rowMem retained) same
  rw [decoded] at read
  unfold prepareOperation
  simp only [read, Except.map, bind, Except.bind]
  cases admitStored binding stored <;> rfl

/-- A retained row of another request makes the admission a conflict. -/
theorem prepareOperation_of_other {binding : RequestBinding} {now : UnixMilliseconds}
    {journal : Table adminOperations} {row : OperationRow} (bounded : Bounded journal)
    (rowMem : row ∈ journal.rows) (retained : row.expired now.get = false)
    (other : row.Other binding) : prepareOperation binding now journal = .error .conflict := by
  rcases decodeOperation_total bounded rowMem with ⟨stored, decoded⟩
  have different : ¬(row.route = binding.route ∧ row.requestSha256 = binding.requestSha256) := by
    rintro ⟨route, request⟩
    rcases other.2 with differs | differs
    · exact differs route
    · exact differs request
  have refused : admitStored binding stored = .error .conflict := by
    rcases decodeOperation_eq_ok decoded with ⟨prepared, rfl, -⟩ |
      ⟨bytes, digest, completed, expires, rfl, -⟩
    · simp only [admitStored]
      rw [if_neg different]
    · simp only [admitStored]
      rw [if_neg different]
  rw [prepareOperation_of_retained rowMem other.1 retained decoded, refused]
  rfl

omit [Sha256] [ResponseModels] in
/-- A journal within its bounds has room for the completion of a prepared row. -/
theorem completed_lt_of_prepared {journal : Table adminOperations} {row : OperationRow}
    (bounded : Bounded journal) (rowMem : row ∈ journal.rows) (prepared : row.state = .prepared) :
    (readCounts journal).1 < completedLimit := by
  have total := countP_add_countP journal.rows
  have positive : 0 < journal.rows.countP fun row => row.state == .prepared :=
    List.countP_pos_iff.mpr ⟨row, rowMem, by simp [prepared]⟩
  have rows := bounded.rows
  simp only [readCounts]
  omega

omit [Sha256] [ResponseModels] in
theorem readOperation_eq_error {id : OperationId} {journal : Table adminOperations}
    {failure : JournalError} (read : readOperation id journal = .error failure) :
    failure = .binding := by
  unfold readOperation at read
  split at read
  · cases read
  · rename_i row _
    unfold decodeOperation at read
    split at read
    · split at read
      · cases read
      · cases read
      · cases read
        rfl
    · cases read
      rfl

omit [ResponseModels] in
/-- No completion is refused for lack of room. -/
theorem completeOperation_ne_resourceExhausted {prepared : PreparedOperation}
    {response : List UInt8} {completed : UnixMilliseconds} {expires : Nat}
    {journal : Table adminOperations} (bounded : Bounded journal) :
    completeOperation prepared response completed expires journal ≠ .error .resourceExhausted := by
  intro failed
  simp only [completeOperation, bind_eq_error] at failed
  rcases failed with failed | ⟨found, read, failed⟩
  · cases readOperation_eq_error failed
  · cases found with
    | none => cases failed
    | some stored =>
        rcases readOperation_eq_some read with ⟨row, rowMem, same, decoded⟩
        rcases decodeOperation_eq_ok decoded with ⟨preparedAt, rfl, state, -⟩ |
          ⟨bytes, digest, completedAt, expiresAt, rfl, state, -⟩
        · have room := completed_lt_of_prepared bounded rowMem state
          simp only at failed
          split at failed
          · simp only [bind_eq_error, require_eq_error, orError_eq_error, room, decide_true,
              Bool.true_eq_false, reduceCtorEq, false_and, and_false, exists_false, or_false,
              false_or, pure_ne_error] at failed
            rcases failed with ⟨-, -, pair, -, -, -, failed⟩
            cases readOperation_eq_error failed
          · cases failed
        · simp only at failed
          split at failed
          · exact pure_ne_error failed
          · cases failed

omit [ResponseModels] in
/-- A prepared operation is completed by any response that fits. -/
theorem completeOperation_of_prepared {prepared : PreparedOperation} {response : List UInt8}
    {completed : UnixMilliseconds} {expires : Nat} {journal : Table adminOperations}
    (bounded : Bounded journal) (stored : prepared.row ∈ journal.rows) (nonempty : response ≠ [])
    (fits : response.length ≤ responseModelMaxBytes)
    (forward : prepared.preparedAt.get ≤ completed.get)
    (instant : expiryOf completed = some expires) :
    ∃ next, completeOperation prepared response completed expires journal =
      .ok (.completed, next) := by
  have mutation : prepared.route.isMutation = true := bounded.mutations _ stored
  have decoded : decodeOperation prepared.row =
      .ok (.prepared prepared.route prepared.requestSha256 prepared.preparedAt.get) := by
    simp [decodeOperation, PreparedOperation.row, mutation]
  have read := @readOperation_eq prepared.operationId journal _ stored rfl
  rw [decoded] at read
  have selected : (completeRow prepared.operationId response completed.get expires).selects
      prepared.row = true := by
    simp [completeRow, PreparedOperation.row]
  have accepted : adminOperations.check ((completeRow prepared.operationId response completed.get
        expires).write prepared.row) = true ∧
      adminOperations.guardUpdate prepared.row ((completeRow prepared.operationId response
        completed.get expires).write prepared.row) = true := by
    have positive : 1 ≤ response.length := List.length_pos_iff.mpr nonempty
    have bound : response.length ≤ 8192 := fits
    have late : completed.get ≤ expires := by
      rw [expiryOf_eq_some instant]
      exact Nat.le_add_right _ _
    have representable : expires ≤ maxInteger := by
      unfold expiryOf at instant
      split at instant
      · cases instant
        assumption
      · cases instant
    refine ⟨?_, by simp [adminOperations, completeRow, PreparedOperation.row]⟩
    simp [adminOperations, completeRow, PreparedOperation.row, OperationRow.shaped,
      prepared.preparedAt.bounded, completed.bounded, positive, bound, forward, late, representable]
  have keyed : ∀ left right : OperationRow,
      (completeRow prepared.operationId response completed.get expires).selects left = true →
      (completeRow prepared.operationId response completed.get expires).selects right = true →
      adminOperations.clash left right = true := by
    intro left right leftChosen rightChosen
    simp only [completeRow, Bool.and_eq_true, beq_iff_eq] at leftChosen rightChosen
    simp [adminOperations, leftChosen.1, rightChosen.1]
  rcases Table.update_of_single adminOperations_clash_comm (fun _ _ => rfl) keyed stored selected
    accepted with ⟨next, updated⟩
  have writtenMem : (completeRow prepared.operationId response completed.get expires).write
      prepared.row ∈ next.rows := by
    rw [(Table.update_spec updated).1, ← Table.rewrite_of_selects selected]
    exact List.mem_map_of_mem stored
  have reread := @readOperation_eq prepared.operationId next _ writtenMem rfl
  have redecoded : decodeOperation ((completeRow prepared.operationId response completed.get
      expires).write prepared.row) = .ok (.completed prepared.route prepared.requestSha256 response
        (Sha256.digest response) prepared.preparedAt.get completed.get expires) := by
    simp [decodeOperation, completeRow, PreparedOperation.row, mutation]
  rw [redecoded] at reread
  have room := completed_lt_of_prepared bounded stored rfl
  refine ⟨next, ?_⟩
  unfold completeOperation
  simp [read, reread, room, updated, orError, require, Except.map, bind, Except.bind, pure,
    Except.pure]

end Reading

section Requests

/-- The bytes of the name of a route. -/
def routeBytes (route : AdminRoute) : List UInt8 :=
  route.operationId.toList.map fun character => UInt8.ofNat character.toNat

theorem routeBytes_inj {left right : AdminRoute} (leftMutation : left.isMutation = true)
    (rightMutation : right.isMutation = true) (same : routeBytes left = routeBytes right) :
    left = right := by
  cases left <;> cases leftMutation <;> cases right <;> cases rightMutation <;>
    first | rfl | exact absurd same (by decide +kernel)

theorem length_routeBytes_lt (route : AdminRoute) : (routeBytes route).length < 256 ^ 8 := by
  cases route <;> decide +kernel

theorem requestBytes_inj {left right : RequestDocument}
    (leftMutation : left.route.isMutation = true)
    (rightMutation : right.route.isMutation = true)
    (same : requestBytes left = requestBytes right) :
    left.route = right.route ∧ left.modelBytes = right.modelBytes := by
  have leftBytes : requestBytes left = domainBytes "radroots.rhi.admin_operation_request.v1" ++
      (toBeBytes 8 (routeBytes left.route).length ++ (routeBytes left.route ++
        ([0] ++ (toBeBytes 8 left.modelBytes.length ++ left.modelBytes)))) := by
    simp [requestBytes, routeBytes]
  have rightBytes : requestBytes right = domainBytes "radroots.rhi.admin_operation_request.v1" ++
      (toBeBytes 8 (routeBytes right.route).length ++ (routeBytes right.route ++
        ([0] ++ (toBeBytes 8 right.modelBytes.length ++ right.modelBytes)))) := by
    simp [requestBytes, routeBytes]
  rw [leftBytes, rightBytes] at same
  have fields := List.append_cancel_left same
  rcases List.append_inj fields (by simp) with ⟨lengths, fields⟩
  have sameLength := toBeBytes_inj (length_routeBytes_lt left.route)
    (length_routeBytes_lt right.route) lengths
  rcases List.append_inj fields sameLength with ⟨route, fields⟩
  rcases List.append_inj fields rfl with ⟨-, fields⟩
  rcases List.append_inj fields (by simp) with ⟨-, model⟩
  exact ⟨routeBytes_inj leftMutation rightMutation route, model⟩

end Requests

section Guarantees

variable [Sha256] [ResponseModels]

/-- The instants of a run do not decrease. -/
def Ordered {Domain : Type} (calls : List (JournalCall Domain)) : Prop :=
  (calls.filterMap JournalCall.instant).Pairwise (· ≤ ·)

/-- A receipt appears in the journal. -/
structure Completes (before after : Table adminOperations) (row : OperationRow)
    (instant : Nat) : Prop where
  fresh : row ∉ before.rows
  stored : row ∈ after.rows
  completed : row.state = .completed
  completedAt : row.completedAt = some instant

/-- What every run of the journal keeps to. -/
structure JournalDisciplined (Domain : Type) : Prop where
  once : ∀ (domain : Domain) (earlier between : List (JournalCall Domain))
    (call again : JournalCall Domain) (first second : OperationRow) (instant later : Nat),
    Ordered (earlier ++ call :: (between ++ [again])) →
    first.operationId = second.operationId →
    Completes (journalExec earlier (.initial domain)).journal
      (journalExec (earlier ++ [call]) (.initial domain)).journal first instant →
    Completes (journalExec (earlier ++ call :: between) (.initial domain)).journal
      (journalExec (earlier ++ call :: (between ++ [again])) (.initial domain)).journal second
      later →
    instant + completedRetention ≤ later
  conflicting : ∀ (domain : Domain) (calls : List (JournalCall Domain)) (disposition : Disposition)
    (journaled sent : RequestDocument) (binding : RequestBinding) (row : OperationRow)
    (now : UnixMilliseconds) (operation : Domain → Except JournalError (ResponseDocument × Domain)),
    disposition ≠ .aborted →
    row ∈ (journalExec calls (.initial domain)).journal.rows → row.expired now.get = false →
    row.route = journaled.route → row.requestSha256 = requestDigest journaled →
    RequestBinding.fromDocument sent = .ok binding → row.operationId = binding.operationId →
    (sent.route ≠ journaled.route ∨ sent.modelBytes ≠ journaled.modelBytes) →
    (Sha256.digest (requestBytes sent) = Sha256.digest (requestBytes journaled) →
      requestBytes sent = requestBytes journaled) →
    prepareAdminOperation .readWriteExisting disposition sent now
        (journalExec calls (.initial domain)) =
      (.error .operationConflict, journalExec calls (.initial domain)) ∧
    (expiryOf now ≠ none →
      executeDatabaseAdminOperation .readWriteExisting disposition sent now operation
          (journalExec calls (.initial domain)) =
        (.error .operationConflict, journalExec calls (.initial domain)))
  atomic : ∀ (mode : HostMode) (disposition : Disposition) (request : RequestDocument)
    (completed : UnixMilliseconds)
    (operation : Domain → Except JournalError (ResponseDocument × Domain))
    (store : Journaled Domain),
    let after :=
      (executeDatabaseAdminOperation mode disposition request completed operation store).2
    (after = store ∨ after = { store with journal := pruneExpired completed.get store.journal }) ∨
      ∃ (binding : RequestBinding) (response : ResponseDocument),
        RequestBinding.fromDocument request = .ok binding ∧
        operation store.domain = .ok (response, after.domain) ∧
        ∃ row ∈ after.journal.rows, Receipt binding response.canonicalBytes row
  bounded : ∀ (domain : Domain) (calls : List (JournalCall Domain)),
    let counts := readCounts (journalExec calls (.initial domain)).journal
    counts.1 ≤ completedLimit ∧ counts.2 ≤ preparedLimit ∧ counts.1 + counts.2 ≤ completedLimit
  completable : ∀ (domain : Domain) (calls : List (JournalCall Domain)) (mode : HostMode)
    (disposition : Disposition) (prepared : PreparedOperation) (response : ResponseDocument)
    (completed : UnixMilliseconds),
    (completeAdminOperation mode disposition prepared response completed
      (journalExec calls (.initial domain))).1 ≠ .error .resourceExhausted ∧
    (prepared.row ∈ (journalExec calls (.initial domain)).journal.rows →
      response.route = prepared.route → response.canonicalBytes.length ≤ responseModelMaxBytes →
      prepared.preparedAt.get ≤ completed.get → expiryOf completed ≠ none →
      (completeAdminOperation .readWriteExisting .acknowledged prepared response completed
        (journalExec calls (.initial domain))).1 = .ok .completed)
  executable : ∀ (domain : Domain) (calls : List (JournalCall Domain)) (request : RequestDocument)
    (binding : RequestBinding) (completed : UnixMilliseconds) (expires : Nat)
    (operation : Domain → Except JournalError (ResponseDocument × Domain)),
    RequestBinding.fromDocument request = .ok binding →
    executeOperation binding completed expires operation (journalExec calls (.initial domain)) =
      .error .resourceExhausted →
    prepareOperation binding completed (journalExec calls (.initial domain)).journal =
        .error .resourceExhausted ∨
      operation (journalExec calls (.initial domain)).domain = .error .resourceExhausted
  pruned : ∀ (domain : Domain) (calls : List (JournalCall Domain)) (call : JournalCall Domain),
    ∀ row ∈ (journalExec calls (.initial domain)).journal.rows,
    (∃ later ∈ (journalExec (calls ++ [call]) (.initial domain)).journal.rows,
      row.Becomes later) ∨
    (row.state = .completed ∧ ∃ now expires, call.instant = some now ∧
      row.expiresAt = some expires ∧ expires ≤ now)

variable {Domain : Type}

theorem journalExec_snoc (calls : List (JournalCall Domain)) (call : JournalCall Domain)
    (store : Journaled Domain) :
    journalExec (calls ++ [call]) store = call.apply (journalExec calls store) := by
  simp [journalExec]

theorem becomes_or_expired (call : JournalCall Domain) {store : Journaled Domain}
    {row : OperationRow} (rowMem : row ∈ store.journal.rows) :
    (∃ later ∈ (call.apply store).journal.rows, row.Becomes later) ∨
      ∃ now, call.instant = some now ∧ row.expired now = true := by
  have evolves := call.evolves store
  cases instant : call.instant with
  | none =>
      rw [instant] at evolves
      rw [evolves]
      exact .inl ⟨row, rowMem, .inl rfl⟩
  | some now =>
      rw [instant] at evolves
      cases expired : row.expired now with
      | true => exact .inr ⟨now, rfl, expired⟩
      | false =>
          rcases Evolves.unexpired_kept evolves rowMem expired with ⟨later, laterMem, becomes, -⟩
          exact .inl ⟨later, laterMem, becomes⟩

omit [Sha256] [ResponseModels] in
theorem OperationRow.expired_spec {row : OperationRow} {now : Nat}
    (expired : row.expired now = true) :
    row.state = .completed ∧ ∃ expires, row.expiresAt = some expires ∧ expires ≤ now := by
  simp only [OperationRow.expired, Bool.and_eq_true, beq_iff_eq, Option.any_eq_true,
    decide_eq_true_eq] at expired
  exact expired

/-- A receipt that appears is dated by the call that wrote it. -/
theorem Completes.instant_eq {call : JournalCall Domain} {store : Journaled Domain}
    {row : OperationRow} {instant : Nat}
    (completes : Completes store.journal (call.apply store).journal row instant) :
    call.instant = some instant := by
  have evolves := call.evolves store
  cases made : call.instant with
  | none =>
      rw [made] at evolves
      have stored := completes.stored
      rw [evolves] at stored
      exact absurd stored completes.fresh
  | some now =>
      rw [made] at evolves
      rcases Evolves.completed_origin evolves completes.stored completes.completed with
        old | ⟨completedAt, -⟩
      · exact absurd old completes.fresh
      · rw [completes.completedAt] at completedAt
        exact completedAt.symm

/-- Two receipts of one identity are a retention apart. -/
theorem completed_once {domain : Domain} {earlier between : List (JournalCall Domain)}
    {call again : JournalCall Domain} {first second : OperationRow} {instant later : Nat}
    (ordered : Ordered (earlier ++ call :: (between ++ [again])))
    (same : first.operationId = second.operationId)
    (once : Completes (journalExec earlier (.initial domain)).journal
      (journalExec (earlier ++ [call]) (.initial domain)).journal first instant)
    (twice : Completes (journalExec (earlier ++ call :: between) (.initial domain)).journal
      (journalExec (earlier ++ call :: (between ++ [again])) (.initial domain)).journal second
      later) :
    instant + completedRetention ≤ later := by
  have expiresAt : first.expiresAt = some (instant + completedRetention) := by
    rcases dated_exec domain (earlier ++ [call]) first once.stored once.completed with
      ⟨completed, completedAt, expires⟩
    rw [once.completedAt, Option.some.injEq] at completedAt
    rw [completedAt]
    exact expires
  have expiry : ∀ now, first.expired now = true → instant + completedRetention ≤ now := by
    intro now expired
    rcases first.expired_spec expired with ⟨-, expires, stored, passed⟩
    rw [expiresAt, Option.some.injEq] at stored
    rw [stored]
    exact passed
  have split : journalExec (earlier ++ call :: between) (.initial domain) =
      journalExec between (journalExec (earlier ++ [call]) (.initial domain)) := by
    simp [journalExec]
  have last : journalExec (earlier ++ call :: (between ++ [again])) (.initial domain) =
      again.apply (journalExec (earlier ++ call :: between) (.initial domain)) := by
    simp [journalExec]
  rw [last] at twice
  have dated : again.instant = some later := twice.instant_eq
  rcases completed_exec once.completed between once.stored with
    kept | ⟨other, otherMem, now, made, expired⟩
  · -- The receipt lasted until the second completion, which therefore pruned it.
    rw [← split] at kept
    rcases becomes_or_expired again kept with ⟨next, nextMem, becomes⟩ | ⟨now, made, expired⟩
    · have unchanged : next = first := by
        rcases becomes with equal | ⟨prepared, -⟩
        · exact equal
        · rw [once.completed] at prepared
          cases prepared
      rw [unchanged] at nextMem
      have equal := eq_of_operationId nextMem twice.stored same
      rw [equal] at kept
      exact absurd kept twice.fresh
    · rw [dated, Option.some.injEq] at made
      rw [made]
      exact expiry now expired
  · -- Somebody pruned it in between, and the instants do not decrease.
    have ordering : now ≤ later := by
      have regrouped : earlier ++ call :: (between ++ [again]) =
          (earlier ++ call :: between) ++ [again] := by simp
      rw [Ordered, regrouped, List.filterMap_append, List.pairwise_append] at ordered
      refine ordered.2.2 now (List.mem_filterMap.mpr ⟨other, ?_, made⟩) later
        (List.mem_filterMap.mpr ⟨again, by simp, dated⟩)
      simp [otherMem]
    exact (expiry now expired).trans ordering

omit [Sha256] [ResponseModels] in
theorem transaction_of_operation_error {State Value : Type} {disposition : Disposition}
    {body : State → Except JournalError (Value × State)} {store : State} {failure : JournalError}
    (known : disposition ≠ .aborted) (failed : body store = .error failure) :
    transaction mapJournalError disposition body store =
      (.error (mapJournalError (.operation failure)), store) := by
  cases disposition with
  | aborted => exact absurd rfl known
  | acknowledged => simp [transaction, failed]
  | unacknowledged applied => simp [transaction, failed]

/-- The reuse of a retained identity for another request is a conflict without effect. -/
theorem conflict_of_other {disposition : Disposition} {request : RequestDocument}
    {binding : RequestBinding} {row : OperationRow} {now : UnixMilliseconds}
    {store : Journaled Domain} (known : disposition ≠ .aborted) (bounded : Bounded store.journal)
    (made : RequestBinding.fromDocument request = .ok binding) (rowMem : row ∈ store.journal.rows)
    (retained : row.expired now.get = false) (other : row.Other binding) :
    prepareAdminOperation .readWriteExisting disposition request now store =
        (.error .operationConflict, store) ∧
      ∀ operation, expiryOf now ≠ none →
        executeDatabaseAdminOperation .readWriteExisting disposition request now operation store =
          (.error .operationConflict, store) := by
  have refused := prepareOperation_of_other bounded rowMem retained other
  refine ⟨?_, ?_⟩
  · unfold prepareAdminOperation
    simp only [ne_eq, not_true_eq_false, if_false, made]
    refine @transaction_of_operation_error _ _ _ _ _ .conflict known ?_
    simp [refused, bind, Except.bind]
  · intro operation dated
    unfold executeDatabaseAdminOperation
    cases instant : expiryOf now with
    | none => exact absurd instant dated
    | some expires =>
        simp only [ne_eq, not_true_eq_false, if_false, made]
        refine @transaction_of_operation_error _ _ _ _ _ .conflict known ?_
        simp [executeOperation, refused, bind, Except.bind]

omit [ResponseModels] in
/-- A row journaled for one request is of another one, unless the digests collide. -/
theorem other_of_differs {journaled sent : RequestDocument} {binding : RequestBinding}
    {row : OperationRow} (mutation : row.route.isMutation = true)
    (route : row.route = journaled.route)
    (request : row.requestSha256 = requestDigest journaled)
    (made : RequestBinding.fromDocument sent = .ok binding)
    (identity : row.operationId = binding.operationId)
    (differs : sent.route ≠ journaled.route ∨ sent.modelBytes ≠ journaled.modelBytes)
    (distinct : Sha256.digest (requestBytes sent) = Sha256.digest (requestBytes journaled) →
      requestBytes sent = requestBytes journaled) : row.Other binding := by
  have bound : binding.route = sent.route ∧ binding.requestSha256 = requestDigest sent ∧
      sent.route.isMutation = true := by
    have isMutation := isMutation_of_fromDocument made
    unfold RequestBinding.fromDocument at made
    split at made
    · split at made
      · cases made
      · cases made
        exact ⟨rfl, rfl, isMutation⟩
    · cases made
  refine ⟨identity, ?_⟩
  by_contra matching
  simp only [not_or, not_not] at matching
  have digests : Sha256.digest (requestBytes sent) = Sha256.digest (requestBytes journaled) := by
    have chained := matching.2
    rw [bound.2.1, request] at chained
    exact chained.symm
  rw [route] at mutation
  rcases requestBytes_inj bound.2.2 mutation (distinct digests) with ⟨sameRoute, sameModel⟩
  rcases differs with differs | differs
  · exact differs sameRoute
  · exact differs sameModel

theorem completeAdminOperation_ne_resourceExhausted {mode : HostMode} {disposition : Disposition}
    {prepared : PreparedOperation} {response : ResponseDocument} {completed : UnixMilliseconds}
    {store : Journaled Domain} (bounded : Bounded store.journal) :
    (completeAdminOperation mode disposition prepared response completed store).1 ≠
      .error .resourceExhausted := by
  intro refused
  unfold completeAdminOperation at refused
  split at refused
  · cases refused
  · split at refused
    · cases refused
    · split at refused
      · cases refused
      · rcases transaction_error refused with aborted | unknown | ⟨failure, failed, reported⟩
        · cases aborted
        · cases unknown
        · cases failure with
          | resourceExhausted =>
              simp only [bind_eq_error, pure_ne_error, and_false, exists_false, or_false] at failed
              exact completeOperation_ne_resourceExhausted bounded failed
          | invalidInput => cases reported
          | conflict => cases reported
          | outcomeUnknown => cases reported
          | binding => cases reported
          | storage => cases reported

theorem completeAdminOperation_of_prepared {prepared : PreparedOperation}
    {response : ResponseDocument} {completed : UnixMilliseconds} {store : Journaled Domain}
    (bounded : Bounded store.journal) (stored : prepared.row ∈ store.journal.rows)
    (route : response.route = prepared.route)
    (fits : response.canonicalBytes.length ≤ responseModelMaxBytes)
    (forward : prepared.preparedAt.get ≤ completed.get) (dated : expiryOf completed ≠ none) :
    (completeAdminOperation .readWriteExisting .acknowledged prepared response completed store).1 =
      .ok .completed := by
  cases instant : expiryOf completed with
  | none => exact absurd instant dated
  | some expires =>
      rcases completeOperation_of_prepared bounded stored response.nonempty fits forward
        instant with
        ⟨next, done⟩
      have admissible : ¬(response.route ≠ prepared.route ∨ response.canonicalBytes = [] ∨
          responseModelMaxBytes < response.canonicalBytes.length ∨
          completed.get < prepared.preparedAt.get) := by
        simp only [not_or, not_not, Nat.not_lt]
        exact ⟨route, response.nonempty, fits, forward⟩
      unfold completeAdminOperation
      rw [if_neg (by simp), if_neg admissible, instant]
      simp [transaction, done, bind, Except.bind, pure, Except.pure]

/-- A database operation lacks room at its admission, or not at all. -/
theorem executeOperation_resourceExhausted {binding : RequestBinding}
    {completed : UnixMilliseconds} {expires : Nat}
    {operation : Domain → Except JournalError (ResponseDocument × Domain)}
    {store : Journaled Domain} (mutation : binding.route.isMutation = true)
    (bounded : Bounded store.journal)
    (failed : executeOperation binding completed expires operation store =
      .error .resourceExhausted) :
    prepareOperation binding completed store.journal = .error .resourceExhausted ∨
      operation store.domain = .error .resourceExhausted := by
  simp only [executeOperation, bind_eq_error] at failed
  rcases failed with refused | ⟨⟨admission, journal⟩, admitting, failed⟩
  · exact .inl refused
  · have still := (prepareOperation_evolves mutation admitting).bounded bounded
    cases admission with
    | exactReplay response => exact absurd failed pure_ne_error
    | prepared prepared =>
        simp only [bind_eq_error, require_eq_error, reduceCtorEq, and_false, false_or,
          pure_ne_error, exists_false, or_false] at failed
        rcases failed with refused | ⟨answer, -, -, -, refused⟩
        · exact .inr refused
        · exact absurd refused (completeOperation_ne_resourceExhausted still)

/-- The journal admits within its bounds, completes what it admitted, completes it once, and forgets
only what has expired. -/
theorem journal_disciplined (Domain : Type) : JournalDisciplined Domain where
  once _ _ _ _ _ _ _ _ _ ordered same once twice := completed_once ordered same once twice
  conflicting domain calls disposition journaled sent binding row now operation known rowMem
      retained route request made identity differs distinct := by
    have bounded := bounded_exec domain calls
    have other := other_of_differs (bounded.mutations row rowMem) route request made identity
      differs
      distinct
    have refused := conflict_of_other known bounded made rowMem retained other
    exact ⟨refused.1, refused.2 operation⟩
  atomic mode disposition request completed operation store := by
    simp only
    unfold executeDatabaseAdminOperation
    split
    · exact .inl (.inl rfl)
    · split
      · exact .inl (.inl rfl)
      · exact .inl (.inl rfl)
      · rename_i binding expires made instant
        rcases transaction_store mapJournalError disposition
          (executeOperation binding completed expires operation) store with same |
          ⟨response, next, done, same⟩
        · exact .inl (.inl same)
        · rw [same]
          rcases executeOperation_spec (isMutation_of_fromDocument made) instant done with
            ⟨-, -, receipt, replayed | ⟨-, operated⟩⟩
          · exact .inl (.inr replayed)
          · exact .inr ⟨binding, response, made, operated, receipt⟩
  bounded domain calls := by
    have bounded := bounded_exec domain calls
    have total := countP_add_countP (journalExec calls (.initial domain)).journal.rows
    have rows := bounded.rows
    simp only [readCounts]
    exact ⟨by omega, bounded.prepared, by omega⟩
  completable domain calls mode disposition prepared response completed := by
    have bounded := bounded_exec domain calls
    refine ⟨completeAdminOperation_ne_resourceExhausted bounded, ?_⟩
    intro stored route fits forward dated
    exact completeAdminOperation_of_prepared bounded stored route fits forward dated
  executable domain calls request binding completed expires operation made failed :=
    executeOperation_resourceExhausted (isMutation_of_fromDocument made) (bounded_exec domain calls)
      failed
  pruned domain calls call row rowMem := by
    rw [journalExec_snoc]
    rcases becomes_or_expired call rowMem with kept | ⟨now, made, expired⟩
    · exact .inl kept
    · rcases row.expired_spec expired with ⟨completed, expires, stored, passed⟩
      exact .inr ⟨completed, now, expires, made, stored, passed⟩

end Guarantees

end Rhi
