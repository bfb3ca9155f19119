import SuiOptions.Exchange.Registry

/-! Escrow accounts: `balance_manager.move`, and the launch gate of
`whitelist.move` in front of deposits and fills. -/

set_option autoImplicit false

namespace SuiOptions.Exchange

open Execution Move

structure DomainState where
  members : List Address
  enabled : Bool
  paused : Bool

def DomainState.assertIngressAllowed (domain : DomainState) (who : Address) : Result Error Unit := do
  check (domain.paused = false) .ingressPaused
  check (domain.enabled = false ∨ who ∈ domain.members) .ingressRestricted

/-- Funds are dynamic fields keyed by coin type; a type never deposited has none. -/
structure BalanceManager where
  owner : Address
  approvedSigners : List Address
  balances : String → Option Nat

namespace BalanceManager

def maxApprovedSigners : Nat := 16

def create (owner : Address) : BalanceManager := ⟨owner, [], fun _ => none⟩

variable (bm : BalanceManager)

def isApprovedSigner (signer : Address) : Bool := signer ∈ bm.approvedSigners

def debit (token : String) (amount : Nat) : Result Error BalanceManager := do
  let held ← need (bm.balances token) (.code .insufficientEscrow)
  check (amount ≤ held) .insufficientEscrow
  pure { bm with balances := Function.update bm.balances token (some (held - amount)) }

def credit (token : String) (amount : Nat) : Result Error BalanceManager := do
  let total ← addU64 ((bm.balances token).getD 0) amount
  pure { bm with balances := Function.update bm.balances token (some total) }

/-- `deposit_internal` differs from `credit` by its event. -/
def deposit (domain : DomainState) (sender : Address) (token : String) (amount : Nat) :
    Result Error BalanceManager := do
  domain.assertIngressAllowed sender
  check (sender = bm.owner ∨ bm.isApprovedSigner sender = true) .depositRestricted
  bm.credit token amount

def depositWithCap (domain : DomainState) (sender : Address) (id capId : ID) (token : String) (amount : Nat) :
    Result Error BalanceManager := do
  domain.assertIngressAllowed sender
  check (capId = id) .wrongCap
  bm.credit token amount

def withdraw (sender : Address) (token : String) (amount : Nat) : Result Error BalanceManager := do
  check (sender = bm.owner) .notOwner
  bm.debit token amount

def withdrawWithCap (id capId : ID) (token : String) (amount : Nat) : Result Error BalanceManager := do
  check (capId = id) .wrongCap
  bm.debit token amount

def addSignerInternal (signer : Address) : Result Error BalanceManager := do
  check (bm.isApprovedSigner signer = false) .alreadyApproved
  check (bm.approvedSigners.length < maxApprovedSigners) .tooManySigners
  pure { bm with approvedSigners := bm.approvedSigners ++ [signer] }

def removeSignerInternal (signer : Address) : Result Error BalanceManager := do
  check (bm.isApprovedSigner signer = true) .notApproved
  pure { bm with approvedSigners := bm.approvedSigners.erase signer }

def addSigner (sender signer : Address) : Result Error BalanceManager := do
  check (sender = bm.owner) .notOwner
  bm.addSignerInternal signer

def addSignerWithCap (id capId : ID) (signer : Address) : Result Error BalanceManager := do
  check (capId = id) .wrongCap
  bm.addSignerInternal signer

def removeSigner (sender signer : Address) : Result Error BalanceManager := do
  check (sender = bm.owner) .notOwner
  bm.removeSignerInternal signer

def removeSignerWithCap (id capId : ID) (signer : Address) : Result Error BalanceManager := do
  check (capId = id) .wrongCap
  bm.removeSignerInternal signer

end BalanceManager

end SuiOptions.Exchange
