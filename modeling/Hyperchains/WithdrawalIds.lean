import Hyperchains.SubnetContract

/-! The withdrawal ids `generate_withdrawal_keys` hands out. The counter goes up
by one per key, so the keys of a block are numbered 0, 1, … in receipt-then-event
order. But `generate_key_from_event` writes the current id into every print tuple
of the subnet contract before it looks up `type`, so a print that is not a
withdrawal, such as the one of `register-asset-contract`, comes back with a
`withdrawal-id` field and no key. -/

namespace Hyperchains.WithdrawalIds
open ClarityValue Events Withdrawal SubnetContract Panic

/-- The event `generate_key_from_event` hands back: a print tuple of the subnet
contract with `withdrawal-id` written in, any other event as it was. -/
def idWritten (event : StacksTransactionEvent) (withdrawalId : Nat) : StacksTransactionEvent :=
  match event with
  | .smartContractEvent ⟨(contract, function), .tuple data⟩ =>
      if isSubnetContractEvent contract function then
        .smartContractEvent ⟨(contract, function), .tuple (data.insert "withdrawal-id" (.uint withdrawalId))⟩
      else event
  | _ => event

theorem generate_key_from_event_written {event : StacksTransactionEvent} {withdrawalId blockHeight : Nat}
    {written : StacksTransactionEvent} {key : Option Value}
    (ran : generateKeyFromEvent event withdrawalId blockHeight = .ok (written, key)) :
    written = idWritten event withdrawalId := by
  unfold generateKeyFromEvent at ran
  split at ran
  · rename_i contract function data
    simp only [idWritten]
    split at ran
    · rename_i notSubnet
      simp only [Bool.not_eq_true'] at notSubnet
      cases ran
      simp [notSubnet]
    · rename_i subnet
      simp only [Bool.not_eq_true', Bool.not_eq_false] at subnet
      simp only [subnet, ↓reduceIte]
      dsimp only at ran
      split at ran
      · cases ran
        rfl
      · obtain ⟨_, _, ran⟩ := bind_eq_ok ran
        obtain ⟨_, _, ran⟩ := bind_eq_ok ran
        cases ran
        rfl
  · cases ran
    unfold idWritten
    split
    · rename_i same
      simp_all
    · rfl

section Counter
variable {Item : Type} (serializeToVec : Value → Item)

/-- Over one receipt's events the counter goes up by one per key, and every event
comes back as `idWritten` makes it at the counter of its turn. -/
theorem generate_event_keys_counter (blockHeight : Nat) :
    ∀ (events : List StacksTransactionEvent) (withdrawalId : Nat) {written : List StacksTransactionEvent}
      {next : Nat} {items : List Item},
      generateEventKeys serializeToVec blockHeight events withdrawalId = .ok (written, next, items) →
      next = withdrawalId + items.length ∧ written.length = events.length ∧
        ∀ i (inside : i < events.length), ∃ counter, withdrawalId ≤ counter ∧
          written[i]? = some (idWritten events[i] counter)
  | [], withdrawalId, written, next, items, ran => by
      cases ran
      exact ⟨rfl, rfl, fun i inside => absurd inside (by simp)⟩
  | event :: rest, withdrawalId, written, next, items, ran => by
      simp only [generateEventKeys] at ran
      obtain ⟨⟨first, key⟩, firstOk, ran⟩ := bind_eq_ok ran
      have firstWritten := generate_key_from_event_written firstOk
      -- the rest starts from the next id when this event gave a key
      cases key with
      | some key =>
          obtain ⟨⟨restWritten, restNext, restItems⟩, restOk, ran⟩ := bind_eq_ok ran
          cases ran
          obtain ⟨restCount, restLength, restEvents⟩ :=
            generate_event_keys_counter blockHeight rest (withdrawalId + 1) restOk
          refine ⟨by simp [restCount]; omega, by simp [restLength], ?_⟩
          intro i inside
          cases i with
          | zero => exact ⟨withdrawalId, le_refl _, by simp [firstWritten]⟩
          | succ i =>
              obtain ⟨counter, above, read⟩ := restEvents i (by simpa using inside)
              exact ⟨counter, by omega, by simpa using read⟩
      | none =>
          obtain ⟨⟨restWritten, restNext, restItems⟩, restOk, ran⟩ := bind_eq_ok ran
          cases ran
          obtain ⟨restCount, restLength, restEvents⟩ :=
            generate_event_keys_counter blockHeight rest withdrawalId restOk
          refine ⟨restCount, by simp [restLength], ?_⟩
          intro i inside
          cases i with
          | zero => exact ⟨withdrawalId, le_refl _, by simp [firstWritten]⟩
          | succ i =>
              obtain ⟨counter, above, read⟩ := restEvents i (by simpa using inside)
              exact ⟨counter, above, by simpa using read⟩

/-- Over the receipts the counter goes up by one per key, from receipt to receipt. -/
theorem generate_receipt_keys_counter (blockHeight : Nat) :
    ∀ (receipts : List StacksTransactionReceipt) (withdrawalId : Nat)
      {written : List StacksTransactionReceipt} {next : Nat} {items : List Item},
      generateReceiptKeys serializeToVec blockHeight receipts withdrawalId = .ok (written, next, items) →
      next = withdrawalId + items.length ∧ written.length = receipts.length
  | [], withdrawalId, written, next, items, ran => by
      cases ran
      exact ⟨rfl, rfl⟩
  | receipt :: rest, withdrawalId, written, next, items, ran => by
      simp only [generateReceiptKeys] at ran
      obtain ⟨⟨events, middle, firstItems⟩, firstOk, ran⟩ := bind_eq_ok ran
      obtain ⟨⟨restWritten, restNext, restItems⟩, restOk, ran⟩ := bind_eq_ok ran
      cases ran
      have first := (generate_event_keys_counter serializeToVec blockHeight receipt.events withdrawalId firstOk).1
      obtain ⟨restCount, restLength⟩ := generate_receipt_keys_counter blockHeight rest middle restOk
      exact ⟨by simp [restCount, first]; omega, by simp [restLength]⟩

end Counter

/-- A `register-asset-contract` call that succeeds prints a tuple without
`type`; `generate_withdrawal_keys` gives it no key, yet hands the receipt back
with `withdrawal-id` 0 written into that tuple. -/
theorem registration_print_gets_withdrawal_id {State : Type} (mainnet : Bool) (txSender : PrincipalData)
    (assetType : String) (l1Contract l2Contract : PrincipalData) (burnchainTxid : List UInt8)
    (state : SubnetState State) (boot : isBoot txSender = true)
    (unregistered : state.allowedContracts l2Contract = none) (receipt : StacksTransactionReceipt)
    (blockHeight : Nat) :
    ∃ outcome data, registerAssetContract mainnet txSender assetType l1Contract l2Contract burnchainTxid state =
        .ok outcome ∧ outcome.response = Value.okayTrue ∧ outcome.events = [printEvent mainnet data] ∧
      generateWithdrawalKeys (fun key => key) [{ receipt with events := outcome.events }] blockHeight =
        .ok ([{ receipt with events := [printEvent mainnet (data.insert "withdrawal-id" (.uint 0))] }], []) ∧
      data.insert "withdrawal-id" (.uint 0) ≠ data := by
  have printed : registerContractPrint assetType l1Contract l2Contract burnchainTxid =
      .ok (.cons "asset-type" (.stringAscii assetType) (.cons "burnchain-txid" (.buff burnchainTxid)
        (.cons "event" (.stringAscii "register-contract") (.cons "l1-contract" (.principal l1Contract)
          (.cons "l2-contract" (.principal l2Contract) .nil))))) := rfl
  refine ⟨_, _, by simp [registerAssetContract, boot, unregistered, printed]; rfl, rfl, rfl, ?_, ?_⟩
  · simp only [generateWithdrawalKeys, generateReceiptKeys, generateEventKeys, generateKeyFromEvent,
      printEvent, print_is_subnet_contract_event, Bool.not_true, Bool.false_eq_true, ↓reduceIte,
      TupleData.insert, TupleData.get_cons, TupleData.get_nil, String.reduceLT, String.reduceEq,
      ok_bind, pure_eq_ok]
    rfl
  · intro same
    have := congrArg (TupleData.get · "withdrawal-id") same
    simp [TupleData.get_cons] at this

/-- The subnet miner registering `l2` for `l1` on testnet, in a contract state
where nothing is registered yet. -/
theorem registration_print_gets_withdrawal_id_testnet :
    isBoot (.standard (bootCodeAddr false)) = true ∧
      ((⟨fun _ => none, ()⟩ : SubnetState Unit).allowedContracts (.contract (bootCodeId "l2" false)) = none) ∧
      ∃ outcome data, registerAssetContract false (.standard (bootCodeAddr false)) "ft"
          (.contract (bootCodeId "l1" false)) (.contract (bootCodeId "l2" false)) (List.replicate 32 0)
          ⟨fun _ => none, ()⟩ = .ok outcome ∧ outcome.response = Value.okayTrue ∧
        outcome.events = [printEvent false data] ∧
        generateWithdrawalKeys (fun key => key) [⟨outcome.events, false, Value.okayTrue⟩] 7 =
          .ok ([⟨[printEvent false (data.insert "withdrawal-id" (.uint 0))], false, Value.okayTrue⟩], []) ∧
        data.insert "withdrawal-id" (.uint 0) ≠ data :=
  ⟨by decide, rfl, registration_print_gets_withdrawal_id false (.standard (bootCodeAddr false)) "ft"
    (.contract (bootCodeId "l1" false)) (.contract (bootCodeId "l2" false)) (List.replicate 32 0)
    ⟨fun _ => none, ()⟩ (by decide) rfl ⟨[], false, Value.okayTrue⟩ 7⟩

end Hyperchains.WithdrawalIds
