import SuiOptions.Lib.Table
import SuiOptions.Core.BucketRegistry

/-! Signed quotes and the nonces that make each of them good once: `quote.move` and
`quote_signer.move`.

A nonce is recorded with the deadline of its quote. Anybody may prune a record once
the deadline is over, so that replay safety rests on the two comparisons with the clock.
-/

set_option autoImplicit false

namespace SuiOptions.Core

open Execution Move

abbrev Bytes := List UInt8

inductive QuoteError where
  | quoteExpired
  | quoteNonceUsed
  | quoteSignatureInvalid
  | quoteProtocolMismatch
  | quoteAccountMismatch
  | notOwner
  | nonceStillValid
  | invalidSigningScheme
  | invalidPubkeyLength
  | noSuchSigner
  | signerExists
  | clockRegression
  deriving DecidableEq, Repr

structure Quote where
  protocolId : Bytes
  signerId : Nat
  collateralSource : Nat
  releasePackage : Nat
  releaseModule : String
  signerTokenRecipient : Nat
  spec : BucketKey
  maxTotalWritten : Nat
  writeAmount : Nat
  premium : Nat
  validUntilMs : Nat
  nonce : Nat
  deriving DecidableEq

structure SignedQuote where
  quote : Quote
  signature : Bytes

/-- A `QuoteSigner`; `nonces` are its dynamic fields under `NonceKey`, each with a deadline. -/
structure QuoteSigner where
  owner : Nat
  signingScheme : Nat
  signingPubkey : Bytes
  nonces : Table Nat Nat

/-- The natives of the framework: the encoding of a quote, and one verifier for each scheme, of a signature,
a public key and a message. -/
structure Natives where
  toBytes : Quote → Bytes
  ed25519Verify : Bytes → Bytes → Bytes → Bool
  secp256k1Verify : Bytes → Bytes → Bytes → Bool
  secp256r1Verify : Bytes → Bytes → Bytes → Bool

def schemeEd25519 : Nat := 0

def schemeSecp256k1 : Nat := 1

def schemeSecp256r1 : Nat := 2

def assertSchemePubkey (scheme : Nat) (pubkey : Bytes) : Result QuoteError Unit :=
  if scheme = schemeEd25519 then check (pubkey.length = 32) .invalidPubkeyLength
  else if scheme = schemeSecp256k1 ∨ scheme = schemeSecp256r1 then check (pubkey.length = 33) .invalidPubkeyLength
  else .error (.code .invalidSigningScheme)

/-! ### One signer -/

def QuoteSigner.hasNonce (signer : QuoteSigner) (nonce : Nat) : Bool := signer.nonces.contains nonce

def QuoteSigner.consumeNonce (signer : QuoteSigner) (nonce validUntilMs : Nat) : QuoteSigner :=
  { signer with nonces := signer.nonces.add nonce validUntilMs }

def QuoteSigner.pruneNonce (signer : QuoteSigner) (nonce now : Nat) : Result QuoteError QuoteSigner :=
  match signer.nonces.get? nonce with
  | none => pure signer
  | some validUntilMs => do
    check (validUntilMs < now) .nonceStillValid
    pure { signer with nonces := signer.nonces.remove nonce }

def QuoteSigner.setQuoteSigningKey (signer : QuoteSigner) (sender scheme : Nat) (pubkey : Bytes) :
    Result QuoteError QuoteSigner := do
  check (sender = signer.owner) .notOwner
  assertSchemePubkey scheme pubkey
  pure { signer with signingScheme := scheme, signingPubkey := pubkey }

variable (natives : Natives)

def QuoteSigner.signatureValid (signer : QuoteSigner) (signed : SignedQuote) : Result QuoteError Bool :=
  let message := natives.toBytes signed.quote
  if signer.signingScheme = schemeEd25519 then
    pure (natives.ed25519Verify signed.signature signer.signingPubkey message)
  else if signer.signingScheme = schemeSecp256k1 then
    pure (natives.secp256k1Verify signed.signature signer.signingPubkey message)
  else if signer.signingScheme = schemeSecp256r1 then
    pure (natives.secp256r1Verify signed.signature signer.signingPubkey message)
  else .error (.code .invalidSigningScheme)

/-- `check_non_signature_fields`, for the signer object with the given id. -/
def QuoteSigner.checkNonSignatureFields (signer : QuoteSigner) (id : Nat) (protocolId : Bytes) (now : Nat)
    (quote : Quote) : Result QuoteError Unit := do
  check (quote.protocolId = protocolId) .quoteProtocolMismatch
  check (quote.signerId = id) .quoteAccountMismatch
  check (now < quote.validUntilMs) .quoteExpired
  check (signer.hasNonce quote.nonce = false) .quoteNonceUsed

def QuoteSigner.verifyAndConsumeQuote (signer : QuoteSigner) (id : Nat) (protocolId : Bytes) (now : Nat)
    (signed : SignedQuote) : Result QuoteError QuoteSigner := do
  signer.checkNonSignatureFields id protocolId now signed.quote
  let valid ← signer.signatureValid natives signed
  check (valid = true) .quoteSignatureInvalid
  pure (signer.consumeNonce signed.quote.nonce signed.quote.validUntilMs)

/-! ### All signers -/

structure Desk where
  now : Nat
  protocolId : Bytes
  signers : Table Nat QuoteSigner

inductive DeskCall where
  | createSigner (id sender scheme : Nat) (pubkey : Bytes)
  | verifyAndConsume (id : Nat) (signed : SignedQuote)
  | pruneNonce (id nonce : Nat)
  | setQuoteSigningKey (id sender scheme : Nat) (pubkey : Bytes)
  | tick (now : Nat)

def Desk.update (desk : Desk) (id : Nat) (operation : QuoteSigner → Result QuoteError QuoteSigner) :
    Result QuoteError Desk := do
  let signer ← need (desk.signers.get? id) (.code .noSuchSigner)
  let after ← operation signer
  pure { desk with signers := desk.signers.set id after }

def Desk.createSigner (desk : Desk) (id sender scheme : Nat) (pubkey : Bytes) : Result QuoteError Desk := do
  assertSchemePubkey scheme pubkey
  check (desk.signers.get? id = none) .signerExists
  pure { desk with signers := desk.signers.add id ⟨sender, scheme, pubkey, []⟩ }

def Desk.tick (desk : Desk) (now : Nat) : Result QuoteError Desk := do
  check (desk.now ≤ now) .clockRegression
  pure { desk with now := now }

def Desk.step (desk : Desk) : DeskCall → Result QuoteError Desk
  | .createSigner id sender scheme pubkey => desk.createSigner id sender scheme pubkey
  | .verifyAndConsume id signed =>
    desk.update id fun signer => signer.verifyAndConsumeQuote natives id desk.protocolId desk.now signed
  | .pruneNonce id nonce => desk.update id fun signer => signer.pruneNonce nonce desk.now
  | .setQuoteSigningKey id sender scheme pubkey =>
    desk.update id fun signer => signer.setQuoteSigningKey sender scheme pubkey
  | .tick now => desk.tick now

/-! ### Replay -/

theorem Desk.update_ok {desk after : Desk} {id : Nat} {operation : QuoteSigner → Result QuoteError QuoteSigner} :
    desk.update id operation = .ok after ↔ ∃ signer changed, desk.signers.get? id = some signer ∧
      operation signer = .ok changed ∧ after = { desk with signers := desk.signers.set id changed } := by
  simp only [Desk.update, bind_ok, need_ok, pure_ok]
  constructor
  · rintro ⟨signer, found, changed, ran, rfl⟩
    exact ⟨signer, changed, found, ran, rfl⟩
  · rintro ⟨signer, changed, found, ran, rfl⟩
    exact ⟨signer, found, changed, ran, rfl⟩

theorem QuoteSigner.checkNonSignatureFields_ok {signer : QuoteSigner} {id now : Nat} {protocolId : Bytes} {quote : Quote} :
    signer.checkNonSignatureFields id protocolId now quote = .ok () ↔ quote.protocolId = protocolId ∧
      quote.signerId = id ∧ now < quote.validUntilMs ∧ signer.nonces.get? quote.nonce = none := by
  simp only [checkNonSignatureFields, check_bind_ok, check_ok, hasNonce, Table.contains, Option.isSome_eq_false_iff,
    Option.isNone_iff_eq_none]

theorem QuoteSigner.verifyAndConsumeQuote_ok {signer after : QuoteSigner} {id now : Nat} {protocolId : Bytes}
    {signed : SignedQuote} (ran : signer.verifyAndConsumeQuote natives id protocolId now signed = .ok after) :
    signer.checkNonSignatureFields id protocolId now signed.quote = .ok () ∧
      after = signer.consumeNonce signed.quote.nonce signed.quote.validUntilMs := by
  simp only [verifyAndConsumeQuote, bind_ok, check_ok, pure_ok] at ran
  obtain ⟨⟨⟩, checked, _, _, _, _, rfl⟩ := ran
  exact ⟨checked, rfl⟩

def Keeps (now : Nat) (operation : QuoteSigner → Result QuoteError QuoteSigner) : Prop :=
  ∀ signer after nonce deadline, operation signer = .ok after → signer.nonces.get? nonce = some deadline →
    deadline ≤ now ∨ after.nonces.get? nonce = some deadline

theorem keeps_verify (id now : Nat) (protocolId : Bytes) (signed : SignedQuote) :
    Keeps now fun signer => signer.verifyAndConsumeQuote natives id protocolId now signed := by
  intro signer after nonce deadline ran recorded
  obtain ⟨_, rfl⟩ := signer.verifyAndConsumeQuote_ok natives ran
  right
  simp only [QuoteSigner.consumeNonce, Table.add]
  rw [Table.get?_append, recorded]
  rfl

theorem keeps_prune (pruned now : Nat) : Keeps now fun signer => signer.pruneNonce pruned now := by
  intro signer after nonce deadline ran recorded
  simp only [QuoteSigner.pruneNonce] at ran
  cases found : signer.nonces.get? pruned with
  | none =>
    rw [found] at ran
    cases ran
    exact Or.inr recorded
  | some validUntilMs =>
    simp only [found, check_bind_ok, pure_ok] at ran
    obtain ⟨closed, rfl⟩ := ran
    by_cases same : nonce = pruned
    · rw [same, found] at recorded
      cases recorded
      exact Or.inl (Nat.le_of_lt closed)
    · exact Or.inr (by rw [Table.get?_remove_of_ne same, recorded])

theorem keeps_rotate (sender scheme now : Nat) (pubkey : Bytes) :
    Keeps now fun signer => signer.setQuoteSigningKey sender scheme pubkey := by
  intro signer after nonce deadline ran recorded
  simp only [QuoteSigner.setQuoteSigningKey, bind_ok, pure_ok] at ran
  obtain ⟨_, _, _, _, rfl⟩ := ran
  exact Or.inr recorded

def Desk.Spent (quote : Quote) (desk : Desk) : Prop :=
  quote.protocolId = desk.protocolId ∧ ∃ signer, desk.signers.get? quote.signerId = some signer ∧
    (quote.validUntilMs ≤ desk.now ∨ signer.nonces.get? quote.nonce = some quote.validUntilMs)

theorem Desk.Spent.update {quote : Quote} {desk after : Desk} {id : Nat}
    {operation : QuoteSigner → Result QuoteError QuoteSigner} (spent : desk.Spent quote)
    (keeps : Keeps desk.now operation) (ran : desk.update id operation = .ok after) : after.Spent quote := by
  obtain ⟨protocol, signer, found, closed⟩ := spent
  obtain ⟨target, changed, located, operated, rfl⟩ := Desk.update_ok.mp ran
  refine ⟨protocol, ?_⟩
  by_cases same : quote.signerId = id
  · rw [same, located] at found
    cases found
    refine ⟨changed, by rw [same, Table.get?_set_self located], ?_⟩
    rcases closed with expired | recorded
    · exact Or.inl expired
    · exact keeps _ changed quote.nonce quote.validUntilMs operated recorded
  · exact ⟨signer, by rw [Table.get?_set_of_ne same, found], closed⟩

theorem Desk.Spent.step {quote : Quote} {desk after : Desk} {call : DeskCall} (spent : desk.Spent quote)
    (ran : desk.step natives call = .ok after) : after.Spent quote := by
  cases call with
  | createSigner id sender scheme pubkey =>
    simp only [Desk.step, Desk.createSigner, bind_ok, check_ok, pure_ok] at ran
    obtain ⟨_, _, _, fresh, rfl⟩ := ran
    obtain ⟨protocol, signer, found, closed⟩ := spent
    refine ⟨protocol, signer, ?_, closed⟩
    simp only [Table.add]
    rw [Table.get?_append, found]
    rfl
  | verifyAndConsume id signed => exact spent.update (keeps_verify natives id desk.now desk.protocolId signed) ran
  | pruneNonce id nonce => exact spent.update (keeps_prune nonce desk.now) ran
  | setQuoteSigningKey id sender scheme pubkey => exact spent.update (keeps_rotate sender scheme desk.now pubkey) ran
  | tick now =>
    simp only [Desk.step, Desk.tick, check_bind_ok, pure_ok] at ran
    obtain ⟨later, rfl⟩ := ran
    obtain ⟨protocol, signer, found, closed⟩ := spent
    exact ⟨protocol, signer, found, closed.imp_left fun expired => Nat.le_trans expired later⟩

theorem Desk.spent_of_consumed {desk after : Desk} {id : Nat} {signed : SignedQuote}
    (used : desk.step natives (.verifyAndConsume id signed) = .ok after) : after.Spent signed.quote := by
  obtain ⟨signer, changed, found, verified, rfl⟩ := Desk.update_ok.mp used
  obtain ⟨checked, rfl⟩ := signer.verifyAndConsumeQuote_ok natives verified
  obtain ⟨protocol, rfl, _, fresh⟩ := QuoteSigner.checkNonSignatureFields_ok.mp checked
  exact ⟨protocol, _, Table.get?_set_self found _, Or.inr (Table.get?_add_self fresh)⟩

theorem Desk.verify_error {desk : Desk} {signed : SignedQuote} {id : Nat} {signer : QuoteSigner} {why : Abort QuoteError}
    (found : desk.signers.get? id = some signer)
    (failed : signer.checkNonSignatureFields id desk.protocolId desk.now signed.quote = .error why) :
    desk.step natives (.verifyAndConsume id signed) = .error why := by
  refine bind_error.mpr (Or.inr ⟨signer, need_ok.mpr found, bind_error.mpr (Or.inl ?_)⟩)
  exact bind_error.mpr (Or.inl failed)

theorem Desk.Spent.refused {desk : Desk} {quote : Quote} (spent : desk.Spent quote) (signature : Bytes) :
    desk.step natives (.verifyAndConsume quote.signerId ⟨quote, signature⟩) = .error (.code .quoteExpired) ∨
      desk.step natives (.verifyAndConsume quote.signerId ⟨quote, signature⟩) = .error (.code .quoteNonceUsed) := by
  obtain ⟨protocol, signer, found, closed⟩ := spent
  by_cases expired : desk.now < quote.validUntilMs
  · right
    have recorded : signer.hasNonce quote.nonce = true := by
      rcases closed with past | recorded
      · omega
      · rw [QuoteSigner.hasNonce, Table.contains, recorded]
        rfl
    refine Desk.verify_error natives found ?_
    simp [QuoteSigner.checkNonSignatureFields, check_of, protocol, expired, recorded, check_error, bind_error]
  · left
    refine Desk.verify_error natives found ?_
    simp [QuoteSigner.checkNonSignatureFields, check_of, protocol, expired, check_error, bind_error, check_ok]

/-- A quote that was consumed is refused ever after: by its signer because it has expired or because its
nonce is recorded, whatever the signature, and by every other signer. -/
theorem Desk.no_replay {desk consumed final : Desk} {id : Nat} {signed : SignedQuote} {later : List DeskCall}
    (used : desk.step natives (.verifyAndConsume id signed) = .ok consumed)
    (ran : exec (Desk.step natives) consumed later = .ok final) (signature : Bytes) :
    (final.step natives (.verifyAndConsume signed.quote.signerId ⟨signed.quote, signature⟩) = .error (.code .quoteExpired) ∨
      final.step natives (.verifyAndConsume signed.quote.signerId ⟨signed.quote, signature⟩) =
        .error (.code .quoteNonceUsed)) ∧
    ∀ (other : Nat) (after : Desk), final.step natives (.verifyAndConsume other ⟨signed.quote, signature⟩) ≠ .ok after := by
  have spent := exec_invariant (Desk.step natives) (Desk.Spent signed.quote) (fun _ _ _ held moved => held.step natives moved)
    (Desk.spent_of_consumed natives used) ran
  have refused := spent.refused natives signature
  refine ⟨refused, fun other after accepted => ?_⟩
  -- only the signer that the quote names gets past the fields
  obtain ⟨signer, changed, _, verified, _⟩ := Desk.update_ok.mp accepted
  obtain ⟨checked, _⟩ := signer.verifyAndConsumeQuote_ok natives verified
  obtain ⟨_, rfl, _⟩ := QuoteSigner.checkNonSignatureFields_ok.mp checked
  rw [accepted] at refused
  simp at refused

def Natives.plain : Natives where
  toBytes quote := [quote.nonce.toUInt8]
  ed25519Verify signature pubkey message := signature = pubkey ++ message
  secp256k1Verify signature pubkey message := signature = pubkey ++ message
  secp256r1Verify signature pubkey message := signature = pubkey ++ message

def Quote.sample : Quote :=
  ⟨[7], 1, 2, 3, "vault_mm", 4, ⟨[], [], 600000, 25, 1, false⟩, 100, 10, 5, 1000, 42⟩

def Desk.open : Desk := ⟨999, [7], [(1, ⟨9, 0, List.replicate 32 0, []⟩)]⟩

def Desk.pruning : List DeskCall := [.tick 1001, .pruneNonce 1 42, .setQuoteSigningKey 1 9 1 (List.replicate 33 0)]

/-- The nonce is pruned as soon as the deadline allows and the key is rotated. -/
theorem Desk.no_replay_pruned :
    ∃ consumed final,
      Desk.open.step .plain (.verifyAndConsume 1 ⟨.sample, List.replicate 32 0 ++ [42]⟩) = .ok consumed ∧
      exec (Desk.step .plain) consumed Desk.pruning = .ok final ∧
      ∀ after, final.step .plain (.verifyAndConsume 1 ⟨.sample, List.replicate 33 0 ++ [42]⟩) ≠ .ok after := by
  have used : ∃ consumed,
      Desk.open.step .plain (.verifyAndConsume 1 ⟨.sample, List.replicate 32 0 ++ [42]⟩) = .ok consumed ∧
      ∃ final, exec (Desk.step .plain) consumed Desk.pruning = .ok final := ⟨_, rfl, _, rfl⟩
  obtain ⟨consumed, verified, final, ran⟩ := used
  exact ⟨consumed, final, verified, ran, (Desk.no_replay .plain verified ran _).2 1⟩

end SuiOptions.Core
