import SuiOptions.Exchange.FillEffects

/-! Every call of the exchange moves each order along its life, so every run keeps
the per-digest fill bound. -/

set_option autoImplicit false

namespace SuiOptions.Exchange

open Execution Move

namespace Market

variable {natives : Natives} {s next : Market} {order : Order} {hash : Bytes}

/-! ### Lives along calls -/

variable {orderBytes : Bytes}

theorem Trade.fillable {ord : Order} {target : Bytes} {taken given : Nat} {a : Account}
    (trade : Trade natives s orderBytes ord target taken given) (live : ¬ a.Dead ord)
    (room : a.filled + taken ≤ ord.takerAmount.toNat) : a.Fillable ord taken given :=
  ⟨live, trade.positive, room, trade.price⟩

def Call.orders : Call → List Bytes
  | .fillLimitOrder _ orderBytes _ _ _ _ _ | .fillLimitOrderReverse _ orderBytes _ _ _ _ _
  | .beginFill _ orderBytes _ _ _ _ | .beginFillReverse _ orderBytes _ _ _ _ | .cancel orderBytes => [orderBytes]
  | .matchOrders _ _ orderABytes _ _ orderBBytes _ _ _ | .beginMatch _ _ orderABytes _ _ orderBBytes _ _ _ =>
    [orderABytes, orderBBytes]
  | _ => []

def Event.orders : Event → List Bytes
  | .call what => what.orders
  | _ => []

theorem admin_ok {what : AdminCall} {reg : SettlementRegistry} (ran : s.admin what = .ok reg) :
    s.registry.SameBooks reg := by
  cases what with
  | setPaused paused => cases ran; exact ⟨rfl, rfl, rfl, rfl⟩
  | setFeeBps feeBps => exact SettlementRegistry.setFeeBps_ok ran
  | setFeeTier account feeBps => exact SettlementRegistry.setFeeTier_ok ran
  | clearFeeTier account => cases ran; exact ⟨rfl, rfl, rfl, rfl⟩
  | sweepBase => cases ran; exact SettlementRegistry.takeFee_same _ _
  | sweepQuote => cases ran; exact SettlementRegistry.takeFee_same _ _

def Quiet (s next : Market) : Prop :=
  next.registry.id = s.registry.id ∧ ∀ order hash, next.account order hash = s.account order hash

theorem obligation_ok {index : Nat} {ob : FillObligation} (ran : s.obligation index = .ok ob) :
    s.obligations[index]? = some ob := need_ok.mp ran

theorem manager_ok {id : ID} {bm : BalanceManager} (ran : s.manager id = .ok bm) : s.managers id = some bm := need_ok.mp ran

theorem map_ok {α β : Type} {outcome : Result Error α} {f : α → β} {result : β}
    (ran : f <$> outcome = .ok result) : ∃ value, outcome = .ok value ∧ f value = result := by
  cases outcome with
  | error why => cases ran
  | ok value => exact ⟨value, rfl, Except.ok.inj ran⟩

/-- The order is cancelled, expired, or has a salt its maker has voided. -/
def Dead (natives : Natives) (order : Order) (s : Market) : Prop :=
  s.registry.isCancelled (digest natives order s.registry.id) = true ∨ order.expiryMs.toNat ≤ s.now ∨
    order.salt.toNat ≤ s.registry.watermark order.maker

/-- The fills of one order, over every run of the market. -/
structure Bounded (natives : Natives) (order : Order) (s : Market) : Prop where
  /-- What has been recorded fits the signed amount. -/
  recorded : (s.tally (digest natives order s.registry.id)).recorded ≤ order.takerAmount.toNat
  /-- The maker has paid at most the signed amount, also while obligations are open. -/
  given : (s.tally (digest natives order s.registry.id)).given ≤ order.makerAmount.toNat
  /-- Between transactions, the maker has got the signed price or better. -/
  price : s.obligations = [] →
    (s.tally (digest natives order s.registry.id)).received =
        (s.tally (digest natives order s.registry.id)).recorded ∧
      (s.tally (digest natives order s.registry.id)).given * order.takerAmount.toNat ≤
        (s.tally (digest natives order s.registry.id)).received * order.makerAmount.toNat

end Market

/-! A signed order of the cross-language conformance vectors: the hash and the
signature check return what the vectors record for it. -/

namespace Vector

open Market

def bigEndian (count value : Nat) : Bytes := (littleEndian count value).reverse

def registryId : ID := 0x5c01aabbccddeeff00112233445566778899aabbccddeeff0011223344556677

def token : Side → String
  | .base => "0x0000000000000000000000000000000000000000000000000000000000000002::sui::SUI"
  | .quote => "0x00000000000000000000000000000000000000000000000000000000000000aa::usdc::USDC"

def maker : Address := 0xa0ccc8bcc83f6c628340134f8546a21e0618fd1aaa02432bba454c4a2c2233da

def managerId : ID := 0x71aa000000000000000000000000000000000000000000000000000000000001

def order : Order :=
  { makerToken := token .base
    takerToken := token .quote
    makerAmount := 50000000000
    takerAmount := 125000000
    maxFeeBps := 10
    maker := maker
    makerManagerId := managerId
    taker := 0
    sender := 0
    expiryMs := 1754330000000
    salt := 1754329100123 }

def orderDigest : Bytes := bigEndian 32 0x0cb63badd00581ca252a84e4d711083c3e464c4f1c238b989331a16115b4be2d

def signingDigest : Bytes := bigEndian 32 0x7e4c06c99165a0037588dfd618a5572eb81a7563822c29018ff22460cd1e32cd

def publicKey : Bytes := bigEndian 32 0xea4a6c63e29c520abef5507b132ec5f9954776aebebe7b92421eea691446d22c

def signature : Bytes := bigEndian 64
  0xeb43b61e8e5743b6dc98fe49672d234d900ab6fd879b86aee894f3804435051da37593b73cad255d6a56b03b092f5cc68e40620e54229eb21fad1ae0bf4b720f

def natives : Natives where
  blake2b256 input :=
    if input = domainTag ++ [domainVersion] ++ addressBytes registryId ++ order.toBytes then orderDigest
    else if input = intentPersonalMessage ++ vecBytes orderDigest then signingDigest
    else if input = schemeEd25519 :: publicKey then addressBytes maker
    else []
  ed25519Verify sig key message := sig = signature ∧ key = publicKey ∧ message = signingDigest
  secp256k1Verify _ _ _ _ := false

/-- Two partial fills by a stranger, one of them through an obligation, and a cancellation. -/
def events : List Event :=
  [.transaction maker, .call (.newManager managerId), .call (.manage managerId (.deposit (token .base) 50000000000)),
    .transaction 7,
    .call (.fillLimitOrder managerId order.toBytes (schemeEd25519 :: signature) publicKey 1000 999 0),
    .call (.beginFill managerId order.toBytes (schemeEd25519 :: signature) publicKey 1 0),
    .call (.provideQuote 0 1), .call (.provideBaseFromManager 0 managerId),
    .call (.collectQuoteToManager 0 managerId), .call (.collectBaseBearer 0), .call (.finish 0),
    .transaction maker, .call (.cancel order.toBytes)]

theorem decoded : fromBytes order.toBytes = .ok order := by decide +kernel

def opening : Market :=
  start (SettlementRegistry.newMarket registryId token (by decide) 25) ⟨[], false, false⟩ 1754329200000

end Vector

end SuiOptions.Exchange
