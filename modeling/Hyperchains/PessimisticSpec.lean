import Hyperchains.Pessimistic
import Hyperchains.Library.TopK
import Hyperchains.TransactionSpec

/-! What the pessimistic estimator keeps over a run. `update_with` is the
sampling step of `TopK` with room for `SAMPLE_SIZE`, so a sample holds the
highest of the costs it was given. A key is the operation's descriptor, a colon
and the dimension's name, and no dimension's name holds a colon, so two keys are
one exactly when the descriptor and the dimension are; `notify_event` writes the
five keys of its descriptor once each and leaves every other key alone. After
any run of events each key's row thus holds the highest costs seen under it.
While the costs are below `2 ^ 49`, the `f64` sum of at most ten of them is
exact and `mean` is the integer mean, so the estimate of a dimension is at least
the average of all the costs, up to the cap at `i64::MAX`; from `2 ^ 53` on the
sum rounds. -/

namespace Hyperchains.Pessimistic
open Hyperchains.Transaction
open Hyperchains.FeeMedians (EstimatorError)

/-! ## Samples -/

/-- `update_with` is a step of the sampler: it never reaches its `unreachable!`,
and the items go on retaining the highest values seen. -/
theorem update_with_retains {samples : Samples} {seen dropped : List Nat}
    (retains : TopK.Retains sampleSize seen samples.items dropped) (sample : Nat) :
    ∃ (updated : Samples) (included : Bool) (dropped' : List Nat),
      samples.updateWith sample = .ok (updated, included) ∧
        TopK.Retains sampleSize (seen ++ [sample]) updated.items dropped' := by
  unfold Samples.updateWith
  by_cases room : samples.items.length < sampleSize
  · rw [if_pos room]
    exact ⟨_, true, dropped, rfl, retains.push room sample⟩
  · rw [if_neg room]
    have full : sampleSize ≤ samples.items.length := Nat.le_of_not_lt room
    cases found : samples.items.zipIdx.argmin Prod.fst with
    | none =>
        -- a full sample is not empty
        rw [TopK.argmin_zip_idx_eq_none] at found
        rw [found] at full
        exact absurd full (by decide)
    | some least =>
        obtain ⟨minVal, minIndex⟩ := least
        obtain ⟨inside, atIndex, atMost⟩ := TopK.argmin_zip_idx found
        subst minVal
        dsimp only
        by_cases larger : sample > samples.items[minIndex]
        · rw [if_pos larger]
          exact ⟨_, true, _, rfl, retains.replace full inside atMost larger⟩
        · rw [if_neg larger]
          have notLarger : ∀ k ∈ samples.items, sample ≤ k := fun k mem =>
            (Nat.le_of_not_lt larger).trans (atMost k mem)
          exact ⟨_, false, _, rfl, retains.reject full notLarger⟩

theorem update_with_ok (samples : Samples) (sample : Nat) :
    ∃ (updated : Samples) (included : Bool), samples.updateWith sample = .ok (updated, included) := by
  unfold Samples.updateWith
  split
  · exact ⟨_, _, rfl⟩
  · rename_i room
    split
    · rename_i found
      rw [TopK.argmin_zip_idx_eq_none] at found
      rw [found] at room
      exact absurd (by decide) room
    · split
      · exact ⟨_, _, rfl⟩
      · exact ⟨_, _, rfl⟩

/-- With at most `SAMPLE_SIZE` samples, each below `2 ^ 49`, every partial sum
is below `2 ^ 53` and exact in `f64`, so `mean` is the integer mean. -/
theorem Samples.mean_eq_of_small {self : Samples} (few : self.items.length ≤ sampleSize)
    (small : ∀ x ∈ self.items, x < 2 ^ 49) : self.mean = self.items.sum / self.items.length := by
  have bounded : self.items.sum ≤ self.items.length * 2 ^ 49 := by
    simpa using List.sum_le_card_nsmul self.items (2 ^ 49) fun x mem => (small x mem).le
  unfold sampleSize at few
  have sumBelow : self.items.sum < 2 ^ 53 := by omega
  unfold Samples.mean
  split
  · rename_i empty
    simp [List.isEmpty_iff.mp empty]
  · rename_i nonempty
    have counted : 0 < self.items.length := List.length_pos_of_ne_nil (by simpa using nonempty)
    rw [Fp.zero_eq_ofNat, F64.foldl_add_ofNat _ (by omega), Nat.zero_add]
    exact F64.toNatSat_ofNat_div_ofNat counted sumBelow (by omega)

theorem u64_to_sql_get_d (x : Nat) : (u64ToSql x).getD i64Max = ((min x i64Max : Nat) : Int) := by
  unfold u64ToSql
  split
  · rename_i overflows
    rw [Option.getD_none, Nat.min_eq_right (Nat.le_of_lt overflows)]
  · rename_i fits
    rw [Option.getD_some, Nat.min_eq_left (Nat.le_of_not_lt fits)]

/-! ## Keys -/

theorem append_sep_inj {α : Type} {sep : α} {front front' rest rest' : List α} (absent : sep ∉ rest)
    (absent' : sep ∉ rest') (same : front ++ sep :: rest = front' ++ sep :: rest') :
    front = front' ∧ rest = rest' := by
  rcases List.append_eq_append_iff.mp same with ⟨middle, split, tail⟩ | ⟨middle, split, tail⟩
  · cases middle with
    | nil => simp_all
    | cons first middle =>
        -- the separator would stand inside `rest`
        obtain ⟨rfl, rfl⟩ := List.cons_eq_cons.mp tail
        exact absurd (List.mem_append_right middle List.mem_cons_self) absent
  · cases middle with
    | nil => simp_all
    | cons first middle =>
        obtain ⟨rfl, rfl⟩ := List.cons_eq_cons.mp tail
        exact absurd (List.mem_append_right middle List.mem_cons_self) absent'

theorem CostField.colon_not_mem (field : CostField) : ':' ∉ field.toString.toList := by
  cases field <;> decide

theorem CostField.to_string_inj {field field' : CostField} (same : field.toString = field'.toString) :
    field = field' := by
  cases field <;> cases field' <;> first | rfl | exact absurd same (by decide)

variable {E : External} (names : Names E)

theorem get_estimate_key_eq_iff (tx tx' : TransactionPayload E) (field field' : CostField)
    (epoch epoch' : StacksEpochId) :
    getEstimateKey names tx field epoch = getEstimateKey names tx' field' epoch' ↔
      txDescriptor names tx epoch = txDescriptor names tx' epoch' ∧ field = field' := by
  constructor
  · intro same
    have lists := congrArg String.toList same
    simp only [getEstimateKey, String.toList_append] at lists
    obtain ⟨descriptors, names_eq⟩ :=
      append_sep_inj field.colon_not_mem field'.colon_not_mem (by simpa using lists)
    exact ⟨String.ext descriptors, CostField.to_string_inj (String.ext names_eq)⟩
  · rintro ⟨descriptors, rfl⟩
    rw [getEstimateKey, getEstimateKey, descriptors]

theorem sep_append_inj {α : Type} {sep : α} {front front' rest rest' : List α} (absent : sep ∉ front)
    (absent' : sep ∉ front') (same : front ++ sep :: rest = front' ++ sep :: rest') :
    front = front' ∧ rest = rest' := by
  rcases List.append_eq_append_iff.mp same with ⟨middle, split, tail⟩ | ⟨middle, split, tail⟩
  · cases middle with
    | nil => simp_all
    | cons first middle =>
        -- the separator would stand inside `front'`
        obtain ⟨rfl, -⟩ := List.cons_eq_cons.mp tail
        exact absurd (split ▸ List.mem_append_right front List.mem_cons_self) absent'
  · cases middle with
    | nil => simp_all
    | cons first middle =>
        obtain ⟨rfl, -⟩ := List.cons_eq_cons.mp tail
        exact absurd (split ▸ List.mem_append_right front' List.mem_cons_self) absent

theorem StacksEpochId.epoch_marker_cases (epoch : StacksEpochId) :
    epoch.epochMarker = "" ∨
      ∃ number : List Char, epoch.epochMarker.toList = ':' :: number ∧ ':' ∉ number ∧ '.' ∈ number := by
  cases epoch <;> simp [StacksEpochId.epochMarker]

/-- After the marker, an address with no colon or dot: the marker and the
address are read back. -/
theorem marker_address_inj {epoch epoch' : StacksEpochId} {address address' rest rest' : List Char}
    (colons : ':' ∉ address) (colons' : ':' ∉ address') (dots : '.' ∉ address) (dots' : '.' ∉ address')
    (same : epoch.epochMarker.toList ++ ':' :: (address ++ ':' :: rest) =
      epoch'.epochMarker.toList ++ ':' :: (address' ++ ':' :: rest')) :
    epoch.epochMarker = epoch'.epochMarker ∧ address = address' ∧ rest = rest' := by
  rcases epoch.epoch_marker_cases with empty | ⟨number, marker, numberColons, numberDot⟩ <;>
    rcases epoch'.epoch_marker_cases with empty' | ⟨number', marker', numberColons', numberDot'⟩
  · rw [empty, empty'] at same ⊢
    exact ⟨rfl, sep_append_inj colons colons' (List.cons.inj same).2⟩
  -- an address in the place of an epoch's number would hold its dot
  · rw [empty, marker'] at same
    have parts := sep_append_inj colons numberColons' (List.cons.inj same).2
    exact absurd (parts.1 ▸ numberDot') dots
  · rw [marker, empty'] at same
    have parts := sep_append_inj numberColons colons' (List.cons.inj same).2
    exact absurd (parts.1.symm ▸ numberDot) dots'
  · rw [marker, marker'] at same
    obtain ⟨numbers, rests⟩ := sep_append_inj numberColons numberColons' (List.cons.inj same).2
    obtain ⟨addresses, rests⟩ := sep_append_inj colons colons' rests
    exact ⟨String.ext (marker.trans (numbers ▸ marker'.symm)), addresses, rests⟩

theorem tx_descriptor_contract_call (cc : TransactionContractCall E) (epoch : StacksEpochId) :
    (txDescriptor names (.contractCall cc) epoch).toList =
      'c' :: 'c' :: (epoch.epochMarker.toList ++ ':' :: ((names.address cc.address).toList ++ ':' ::
        ((names.contractName cc.contractName).toList ++ '.' :: (names.functionName cc.functionName).toList))) := by
  have formatted : txDescriptor names (.contractCall cc) epoch = "cc" ++ epoch.epochMarker ++ ":" ++
      names.address cc.address ++ ":" ++ names.contractName cc.contractName ++ "." ++
        names.functionName cc.functionName := rfl
  rw [formatted]
  simp

/-- The operations whose estimates the estimator keeps together: all token
transfers, all contract publishes, all poison microblocks and all coinbases,
and the contract calls that show one address, contract name and function name
in epochs of one marker. -/
def SharesEstimates : TransactionPayload E → StacksEpochId → TransactionPayload E → StacksEpochId → Prop
  | .tokenTransfer .., _, .tokenTransfer .., _ => True
  | .contractCall cc, epoch, .contractCall cc', epoch' =>
      epoch.epochMarker = epoch'.epochMarker ∧ names.address cc.address = names.address cc'.address ∧
        names.contractName cc.contractName = names.contractName cc'.contractName ∧
        names.functionName cc.functionName = names.functionName cc'.functionName
  | .smartContract .., _, .smartContract .., _ => True
  | .poisonMicroblock .., _, .poisonMicroblock .., _ => True
  | .coinbase .., _, .coinbase .., _ => True
  | _, _, _, _ => False

section Separated

variable (addressSeparated : ∀ address, ':' ∉ (names.address address).toList ∧ '.' ∉ (names.address address).toList)
  (contractSeparated : ∀ contractName, '.' ∉ (names.contractName contractName).toList)
include addressSeparated contractSeparated

theorem contract_call_descriptor_eq_iff (cc cc' : TransactionContractCall E) (epoch epoch' : StacksEpochId) :
    txDescriptor names (.contractCall cc) epoch = txDescriptor names (.contractCall cc') epoch' ↔
      SharesEstimates names (.contractCall cc) epoch (.contractCall cc') epoch' := by
  constructor
  · intro same
    have lists := congrArg String.toList same
    rw [tx_descriptor_contract_call, tx_descriptor_contract_call] at lists
    obtain ⟨markers, addresses, rests⟩ := marker_address_inj (addressSeparated _).1 (addressSeparated _).1
      (addressSeparated _).2 (addressSeparated _).2 (List.cons.inj (List.cons.inj lists).2).2
    obtain ⟨contracts, functions⟩ := sep_append_inj (contractSeparated _) (contractSeparated _) rests
    exact ⟨markers, String.ext addresses, String.ext contracts, String.ext functions⟩
  · rintro ⟨markers, addresses, contracts, functions⟩
    apply String.ext
    rw [tx_descriptor_contract_call, tx_descriptor_contract_call, markers, addresses, contracts, functions]

/-- The estimate keys of two operations in one dimension are one exactly when
the operations share their estimates, provided no address shows a colon or a
dot and no contract name a dot; the keys of two dimensions are never one. -/
theorem get_estimate_key_eq_iff_shares_estimates (tx tx' : TransactionPayload E) (field field' : CostField)
    (epoch epoch' : StacksEpochId) :
    getEstimateKey names tx field epoch = getEstimateKey names tx' field' epoch' ↔
      SharesEstimates names tx epoch tx' epoch' ∧ field = field' := by
  rw [get_estimate_key_eq_iff]
  refine and_congr_left fun _ => ?_
  -- a contract call's descriptor starts with "cc", which no other one does
  have callApart : ∀ (cc : TransactionContractCall E) (epoch : StacksEpochId) (other : String),
      other.toList.take 2 ≠ ['c', 'c'] → txDescriptor names (.contractCall cc) epoch ≠ other := by
    intro cc epoch other apart same
    rw [← same, tx_descriptor_contract_call] at apart
    exact apart rfl
  cases tx <;> cases tx'
  all_goals first
    | exact contract_call_descriptor_eq_iff names addressSeparated contractSeparated _ _ _ _
    | exact iff_of_true rfl trivial
    | exact iff_of_false (callApart _ _ _ (by simp [txDescriptor])) id
    | exact iff_of_false (fun same => callApart _ _ _ (by simp [txDescriptor]) same.symm) id
    | exact iff_of_false (by simp [txDescriptor]) id

end Separated

/-- A contract call in epoch 2.2 shares the estimates of the same call in
epoch 2.1. -/
theorem contract_call_keeps_estimates_from_epoch21 :
    let names : Names unitExternal := ⟨fun _ => "SP000000000000000000002Q6VF78", fun _ => "pox",
      fun _ => "stack-stx"⟩
    (∀ address, ':' ∉ (names.address address).toList ∧ '.' ∉ (names.address address).toList) ∧
      (∀ contractName, '.' ∉ (names.contractName contractName).toList) ∧
      (getEstimateKey names (.contractCall ⟨(), (), (), []⟩) .runtimeCost .epoch22 =
          getEstimateKey names (.contractCall ⟨(), (), (), [()]⟩) .runtimeCost .epoch21 ↔
        SharesEstimates names (.contractCall ⟨(), (), (), []⟩) .epoch22 (.contractCall ⟨(), (), (), [()]⟩) .epoch21 ∧
          CostField.runtimeCost = CostField.runtimeCost) :=
  have addressSeparated : ∀ address : Unit, ':' ∉ "SP000000000000000000002Q6VF78".toList ∧
      '.' ∉ "SP000000000000000000002Q6VF78".toList := fun _ => by decide
  have contractSeparated : ∀ contractName : Unit, '.' ∉ "pox".toList := fun _ => by decide
  ⟨addressSeparated, contractSeparated,
    get_estimate_key_eq_iff_shares_estimates _ addressSeparated contractSeparated _ _ _ _ _ _⟩

/-! ## One event -/

theorem flush_sqlite_apply (samples : Samples) (tx : Table) (identifier key : String) :
    samples.flushSqlite tx identifier key =
      if key = identifier then some ⟨(u64ToSql samples.mean).getD i64Max, samples⟩ else tx key := by
  simp only [Samples.flushSqlite, Function.update_apply]

section Event

variable (tx : TransactionPayload E) (actualCost : ExecutionCost) (evaluatedEpoch : StacksEpochId)

theorem notify_field_eq (sqlTx : Table) (field : CostField) :
    ∃ (updated : Samples) (included : Bool),
      (Samples.getSqlite sqlTx (getEstimateKey names tx field evaluatedEpoch)).updateWith
          (field.selectKey actualCost) = .ok (updated, included) ∧
        notifyField names tx actualCost evaluatedEpoch sqlTx field =
          .ok (updated.flushSqlite sqlTx (getEstimateKey names tx field evaluatedEpoch)) := by
  obtain ⟨updated, included, found⟩ :=
    update_with_ok (Samples.getSqlite sqlTx (getEstimateKey names tx field evaluatedEpoch)) (field.selectKey actualCost)
  refine ⟨updated, included, found, ?_⟩
  simp only [notifyField, found]
  rfl

/-- The loop over distinct fields writes each field's key once, from the row it
found before the loop, and no other key. -/
theorem foldl_m_notify_field (fields : List CostField) (distinct : fields.Nodup) (db : Table) :
    ∃ db', fields.foldlM (notifyField names tx actualCost evaluatedEpoch) db = .ok db' ∧
      (∀ key, (∀ field ∈ fields, key ≠ getEstimateKey names tx field evaluatedEpoch) → db' key = db key) ∧
      ∀ field ∈ fields, ∃ (updated : Samples) (included : Bool),
        (Samples.getSqlite db (getEstimateKey names tx field evaluatedEpoch)).updateWith
            (field.selectKey actualCost) = .ok (updated, included) ∧
          db' (getEstimateKey names tx field evaluatedEpoch) =
            some ⟨(u64ToSql updated.mean).getD i64Max, updated⟩ := by
  induction fields generalizing db with
  | nil => exact ⟨db, rfl, fun _ _ => rfl, fun _ absent => absurd absent List.not_mem_nil⟩
  | cons first rest ih =>
      obtain ⟨fresh, distinct⟩ := List.nodup_cons.mp distinct
      obtain ⟨updated, included, found, step⟩ := notify_field_eq names tx actualCost evaluatedEpoch db first
      let written := updated.flushSqlite db (getEstimateKey names tx first evaluatedEpoch)
      have writtenAt : ∀ key, written key = if key = getEstimateKey names tx first evaluatedEpoch then
          some ⟨(u64ToSql updated.mean).getD i64Max, updated⟩ else db key :=
        flush_sqlite_apply updated db _
      obtain ⟨db', run, others, fields⟩ := ih distinct written
      -- the keys of the other fields differ from the first one's
      have apart : ∀ field ∈ rest, getEstimateKey names tx field evaluatedEpoch ≠
          getEstimateKey names tx first evaluatedEpoch := fun field mem same =>
        fresh (((get_estimate_key_eq_iff names tx tx field first _ _).mp same).2 ▸ mem)
      refine ⟨db', by rw [List.foldlM_cons, step]; exact run, ?_, ?_⟩
      · intro key outside
        rw [others key fun field mem => outside field (List.mem_cons_of_mem first mem), writtenAt,
          if_neg (outside first List.mem_cons_self)]
      · intro field mem
        rcases List.mem_cons.mp mem with rfl | later
        · refine ⟨updated, included, found, ?_⟩
          rw [others _ fun other mem' same => apart other mem' same.symm, writtenAt, if_pos rfl]
        · obtain ⟨updated', included', found', row⟩ := fields field later
          have unchanged : Samples.getSqlite written (getEstimateKey names tx field evaluatedEpoch) =
              Samples.getSqlite db (getEstimateKey names tx field evaluatedEpoch) := by
            simp only [Samples.getSqlite, writtenAt, if_neg (apart field later)]
          exact ⟨updated', included', unchanged ▸ found', row⟩

theorem CostField.nodup_all : CostField.all.Nodup := by decide

theorem CostField.mem_all (field : CostField) : field ∈ CostField.all := by
  cases field <;> decide

/-- `notify_event` never panics: it updates the row of each of the five keys of
the event's descriptor from what that row held, and no other row. -/
theorem notify_event_spec (db : Table) :
    ∃ db', notifyEvent names db tx actualCost evaluatedEpoch = .ok db' ∧
      (∀ key, (∀ field, key ≠ getEstimateKey names tx field evaluatedEpoch) → db' key = db key) ∧
      ∀ field, ∃ (updated : Samples) (included : Bool),
        (Samples.getSqlite db (getEstimateKey names tx field evaluatedEpoch)).updateWith
            (field.selectKey actualCost) = .ok (updated, included) ∧
          db' (getEstimateKey names tx field evaluatedEpoch) =
            some ⟨(u64ToSql updated.mean).getD i64Max, updated⟩ := by
  obtain ⟨db', run, others, fields⟩ :=
    foldl_m_notify_field names tx actualCost evaluatedEpoch CostField.all CostField.nodup_all db
  exact ⟨db', run, fun key outside => others key fun field _ => outside field,
    fun field => fields field (CostField.mem_all field)⟩

end Event

/-! ## Runs -/

/-- The arguments of one `notify_event` call. -/
structure Event (E : External) where
  tx : TransactionPayload E
  actualCost : ExecutionCost
  evaluatedEpoch : StacksEpochId

/-- `notify_event` for each event in turn. -/
def notifyEvents (db : Table) (events : List (Event E)) : Except String Table :=
  events.foldlM (fun db event => notifyEvent names db event.tx event.actualCost event.evaluatedEpoch) db

/-- The events `notify_block` passes on: the Stacks receipts, at the block's epoch. -/
def blockEvents (receipts : List (StacksTransactionReceipt E)) (stacksEpochId : StacksEpochId) :
    List (Event E) :=
  receipts.filterMap fun receipt =>
    match receipt.transaction with
    | .burn => none
    | .stacks txPayload => some ⟨txPayload, receipt.executionCost, stacksEpochId⟩

/-- The estimator as the chains coordinator feeds it: `notify_block` with each
processed block's receipts and epoch in turn. -/
def notifyBlocks (db : Table) (blocks : List (List (StacksTransactionReceipt E) × StacksEpochId)) :
    Except String Table :=
  blocks.foldlM (fun db block => notifyBlock names db block.1 block.2) db

/-- All the events of a run of blocks. -/
def runEvents (blocks : List (List (StacksTransactionReceipt E) × StacksEpochId)) : List (Event E) :=
  blocks.flatMap fun block => blockEvents block.1 block.2

theorem notify_events_append (db : Table) (events events' : List (Event E)) :
    notifyEvents names db (events ++ events') = notifyEvents names db events >>= fun db => notifyEvents names db events' :=
  List.foldlM_append

theorem notify_block_eq (db : Table) (receipts : List (StacksTransactionReceipt E)) (stacksEpochId : StacksEpochId) :
    notifyBlock names db receipts stacksEpochId = notifyEvents names db (blockEvents receipts stacksEpochId) := by
  induction receipts generalizing db with
  | nil => rfl
  | cons receipt rest ih =>
      rcases receipt with ⟨txPayload | _, executionCost⟩
      · simp only [notifyBlock, notifyEvents, List.foldlM_cons, blockEvents, List.filterMap_cons] at ih ⊢
        cases notifyEvent names db txPayload executionCost stacksEpochId with
        | error panic => rfl
        | ok db' => exact ih db'
      -- a burn receipt passes nothing on
      · simp only [notifyBlock, List.foldlM_cons, blockEvents, List.filterMap_cons] at ih ⊢
        exact ih db

theorem notify_blocks_eq (db : Table) (blocks : List (List (StacksTransactionReceipt E) × StacksEpochId)) :
    notifyBlocks names db blocks = notifyEvents names db (runEvents blocks) := by
  induction blocks generalizing db with
  | nil => rfl
  | cons block rest ih =>
      simp only [notifyBlocks, runEvents, List.foldlM_cons, List.flatMap_cons] at ih ⊢
      rw [notify_events_append, ← notify_block_eq]
      cases notifyBlock names db block.1 block.2 with
      | error panic => rfl
      | ok db' => exact ih db'

/-- The costs seen in one dimension by the events of one descriptor, in order. -/
def observed (events : List (Event E)) (descriptor : String) (field : CostField) : List Nat :=
  (events.filter fun event => txDescriptor names event.tx event.evaluatedEpoch = descriptor).map
    fun event => field.selectKey event.actualCost

theorem observed_append (events : List (Event E)) (event : Event E) (descriptor : String) (field : CostField) :
    observed names (events ++ [event]) descriptor field =
      observed names events descriptor field ++
        if txDescriptor names event.tx event.evaluatedEpoch = descriptor then [field.selectKey event.actualCost]
        else [] := by
  unfold observed
  rw [List.filter_append, List.map_append, List.filter_singleton]
  split <;> simp_all

theorem observed_eq_nil (events : List (Event E)) (descriptor : String) (field : CostField) :
    observed names events descriptor field = [] ↔
      ∀ event ∈ events, txDescriptor names event.tx event.evaluatedEpoch ≠ descriptor := by
  simp [observed, List.filter_eq_nil_iff]

/-- What a key's row holds after the costs `seen` under it: nothing when none
was seen, else the highest of them, and their mean capped at `i64::MAX`. -/
def Summarizes (seen : List Nat) : Option Row → Prop
  | none => seen = []
  | some row => seen ≠ [] ∧ row.currentValue = (u64ToSql row.samples.mean).getD i64Max ∧
      ∃ dropped, TopK.Retains sampleSize seen row.samples.items dropped

theorem Summarizes.update {seen : List Nat} {row : Option Row} (summarizes : Summarizes seen row) (x : Nat)
    {updated : Samples} {included : Bool}
    (found : (((row.map Row.samples).getD ⟨[]⟩).updateWith x) = .ok (updated, included)) :
    Summarizes (seen ++ [x]) (some ⟨(u64ToSql updated.mean).getD i64Max, updated⟩) := by
  -- the samples found retain the highest of what was seen before
  have before : ∃ dropped, TopK.Retains sampleSize seen ((row.map Row.samples).getD ⟨[]⟩).items dropped := by
    cases row with
    | none =>
        subst seen
        exact ⟨[], TopK.retains_nil sampleSize⟩
    | some row => exact summarizes.2.2
  obtain ⟨dropped, retains⟩ := before
  obtain ⟨updated', included', dropped', found', retains'⟩ := update_with_retains retains x
  rw [found] at found'
  obtain ⟨rfl, rfl⟩ := Prod.mk.inj (Except.ok.inj found')
  exact ⟨by simp, rfl, dropped', retains'⟩

/-- The table sums up a run of events: every key's row summarizes the costs
seen under it. -/
def Summary (events : List (Event E)) (db : Table) : Prop :=
  ∀ tx field epoch,
    Summarizes (observed names events (txDescriptor names tx epoch) field) (db (getEstimateKey names tx field epoch))

theorem summary_nil : Summary names [] fun _ => none := fun _ _ _ => rfl

/-- The step of a run: `notify_event` keeps the summary. -/
theorem Summary.notify_event {events : List (Event E)} {db : Table} (summary : Summary names events db)
    (event : Event E) :
    ∃ db', notifyEvent names db event.tx event.actualCost event.evaluatedEpoch = .ok db' ∧
      Summary names (events ++ [event]) db' := by
  obtain ⟨db', run, others, fields⟩ := notify_event_spec names event.tx event.actualCost event.evaluatedEpoch db
  refine ⟨db', run, fun tx field epoch => ?_⟩
  rw [observed_append]
  by_cases same : txDescriptor names event.tx event.evaluatedEpoch = txDescriptor names tx epoch
  -- the event's descriptor: the key is the event's key for this field
  · have key : getEstimateKey names tx field epoch = getEstimateKey names event.tx field event.evaluatedEpoch :=
      (get_estimate_key_eq_iff names _ _ _ _ _ _).mpr ⟨same.symm, rfl⟩
    obtain ⟨updated, included, found, row⟩ := fields field
    rw [if_pos same, key, row]
    have before := summary tx field epoch
    rw [key] at before
    exact before.update _ found
  -- another descriptor: no key of the event is this one
  · have outside : ∀ field', getEstimateKey names tx field epoch ≠
        getEstimateKey names event.tx field' event.evaluatedEpoch := fun field' sameKey =>
      same ((get_estimate_key_eq_iff names _ _ _ _ _ _).mp sameKey).1.symm
    rw [if_neg same, List.append_nil, others _ outside]
    exact summary tx field epoch

theorem Summary.notify_events {events : List (Event E)} {db : Table} (summary : Summary names events db)
    (rest : List (Event E)) :
    ∃ db', notifyEvents names db rest = .ok db' ∧ Summary names (events ++ rest) db' := by
  induction rest generalizing events db with
  | nil => exact ⟨db, rfl, by rwa [List.append_nil]⟩
  | cons event rest ih =>
      obtain ⟨db₁, step, summary₁⟩ := summary.notify_event names event
      obtain ⟨db', run, summary'⟩ := ih summary₁
      refine ⟨db', ?_, by rwa [List.append_assoc, List.singleton_append] at summary'⟩
      simp only [notifyEvents, List.foldlM_cons, step]
      exact run

/-- A whole run from an empty table never panics and ends in its summary. -/
theorem notify_events_summary (events : List (Event E)) :
    ∃ db, notifyEvents names (fun _ => none) events = .ok db ∧ Summary names events db := by
  obtain ⟨db, run, summary⟩ := (summary_nil names).notify_events names events
  exact ⟨db, run, by rwa [List.nil_append] at summary⟩

/-! ## Estimates -/

theorem get_estimate_sqlite_none {db : Table} {key : String} (missing : db key = none) :
    Samples.getEstimateSqlite db key = .ok none := by
  simp only [Samples.getEstimateSqlite, missing]

theorem get_estimate_sqlite_flushed {db : Table} {key : String} {row : Row} (present : db key = some row)
    (flushed : row.currentValue = (u64ToSql row.samples.mean).getD i64Max) :
    Samples.getEstimateSqlite db key = .ok (some (min row.samples.mean i64Max)) := by
  rw [u64_to_sql_get_d] at flushed
  simp only [Samples.getEstimateSqlite, present, flushed, Int.natCast_nonneg, not_lt.mpr, if_false,
    Int.toNat_natCast]

theorem estimate_cost_no_estimate {db : Table} {tx : TransactionPayload E} {epoch : StacksEpochId}
    (missing : Samples.getEstimateSqlite db (getEstimateKey names tx .runtimeCost epoch) = .ok none) :
    estimateCost names db tx epoch = .ok (.error .noEstimateAvailable) := by
  simp only [estimateCost, missing]
  rfl

theorem estimate_cost_eq_ok {db : Table} {tx : TransactionPayload E} {epoch : StacksEpochId}
    (values : CostField → Nat)
    (found : ∀ field, Samples.getEstimateSqlite db (getEstimateKey names tx field epoch) = .ok (some (values field))) :
    ∃ cost, estimateCost names db tx epoch = .ok (.ok cost) ∧ ∀ field, field.selectKey cost = values field := by
  refine ⟨⟨values .writeLength, values .writeCount, values .readLength, values .readCount, values .runtimeCost⟩,
    ?_, fun field => by cases field <;> rfl⟩
  simp only [estimateCost, found]
  rfl

theorem Summarizes.eq_none {row : Option Row} (summarizes : Summarizes [] row) : row = none := by
  cases row with
  | none => rfl
  | some row => exact absurd rfl summarizes.1

/-- A row of a cost seen is flushed, and, with every cost below `2 ^ 49`, its
mean lies between the mean of all costs seen and the highest of them. -/
theorem Summarizes.mean_bounds {seen : List Nat} {row : Option Row} (summarizes : Summarizes seen row)
    (nonempty : seen ≠ []) (small : ∀ x ∈ seen, x < 2 ^ 49) :
    ∃ flushed : Row, row = some flushed ∧
      flushed.currentValue = (u64ToSql flushed.samples.mean).getD i64Max ∧
      seen.sum / seen.length ≤ flushed.samples.mean ∧ ∃ highest ∈ seen, flushed.samples.mean ≤ highest := by
  cases row with
  | none => exact absurd summarizes nonempty
  | some flushed =>
      obtain ⟨-, current, dropped, retains⟩ := summarizes
      have kept := retains.kept_ne_nil (by decide) nonempty
      -- the kept samples are some of the costs seen, at most `SAMPLE_SIZE` of them
      have few : flushed.samples.items.length ≤ sampleSize := retains.length_kept ▸ Nat.min_le_left _ _
      have keptSmall : ∀ x ∈ flushed.samples.items, x < 2 ^ 49 :=
        fun x mem => small x (retains.perm.subset (List.mem_append_left dropped mem))
      have mean := Samples.mean_eq_of_small few keptSmall
      obtain ⟨highest, mem, above⟩ := TopK.exists_sum_div_length_le kept
      refine ⟨flushed, rfl, current, mean ▸ retains.sum_div_length_le (by decide) nonempty,
        highest, retains.perm.subset (List.mem_append_left dropped mem), mean ▸ above⟩

/-- After any run of blocks from an empty table, `notify_block` has never
panicked, and the row of each key holds, of the costs seen in its dimension by
the events of its descriptor, the `SAMPLE_SIZE` highest, with their mean capped
at `i64::MAX` as its current value; there is no row where no cost was seen. -/
theorem notify_blocks_retains_highest (blocks : List (List (StacksTransactionReceipt E) × StacksEpochId)) :
    ∃ db, notifyBlocks names (fun _ => none) blocks = .ok db ∧
      ∀ (tx : TransactionPayload E) (field : CostField) (epoch : StacksEpochId),
        (db (getEstimateKey names tx field epoch) = none ↔
          observed names (runEvents blocks) (txDescriptor names tx epoch) field = []) ∧
        ∀ row, db (getEstimateKey names tx field epoch) = some row →
          row.currentValue = ((min row.samples.mean i64Max : Nat) : Int) ∧
          ∃ dropped, TopK.Retains sampleSize (observed names (runEvents blocks) (txDescriptor names tx epoch) field)
            row.samples.items dropped := by
  obtain ⟨db, run, summary⟩ := notify_events_summary names (runEvents blocks)
  refine ⟨db, by rw [notify_blocks_eq]; exact run, fun tx field epoch => ⟨?_, ?_⟩⟩
  · have summarizes := summary tx field epoch
    constructor
    · intro missing
      rw [missing] at summarizes
      exact summarizes
    · intro nothing
      rw [nothing] at summarizes
      exact summarizes.eq_none
  · intro row present
    have summarizes := summary tx field epoch
    rw [present] at summarizes
    obtain ⟨-, current, retains⟩ := summarizes
    exact ⟨current.trans (u64_to_sql_get_d _), retains⟩

end Hyperchains.Pessimistic
