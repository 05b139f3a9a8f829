import CryptoArbBot.Strategy.SpreadDetector

/-!
# The largest profitable quantity

The net spread of the two average prices falls as the quantity grows, so the
quantities that net enough come first and the halving loop closes in on the last
of them.
-/

namespace CryptoArbBot.DepthAnalyzer

/-! ### The halving loop -/

section Search
variable {net : ℚ → Option ℚ} {minNetSpreadBps maxQty : ℚ}

def NetsEnough (net : ℚ → Option ℚ) (minNetSpreadBps quantity : ℚ) : Prop :=
  ∃ bps, net quantity = some bps ∧ minNetSpreadBps ≤ bps

theorem netsEnough_iff {quantity bps : ℚ} (h : net quantity = some bps) :
    NetsEnough net minNetSpreadBps quantity ↔ minNetSpreadBps ≤ bps := by
  unfold NetsEnough
  rw [h]
  constructor
  · intro henough
    obtain ⟨bps', heq, hle⟩ := henough
    cases heq
    exact hle
  · exact fun hle => ⟨bps, rfl, hle⟩

theorem not_netsEnough_of_none {quantity : ℚ} (h : net quantity = none) :
    ¬ NetsEnough net minNetSpreadBps quantity := by
  intro henough
  obtain ⟨bps, hbps, _⟩ := henough
  rw [h] at hbps
  cases hbps

/-- What nets enough comes before what does not. -/
def EnoughFirst (net : ℚ → Option ℚ) (minNetSpreadBps : ℚ) : Prop :=
  ∀ small large, 0 < small → small ≤ large → NetsEnough net minNetSpreadBps large →
    NetsEnough net minNetSpreadBps small

theorem half_width (width : ℚ) (iterations : ℕ) :
    width / 2 / 2 ^ iterations = width / 2 ^ (iterations + 1) := by
  rw [div_div, ← pow_succ']

/-- On each exit the quantities that net enough end within the last width, or
below the smallest quantity that is tried. -/
theorem searchLoop_near (hfirst : EnoughFirst net minNetSpreadBps) {quantity : ℚ}
    (henough : NetsEnough net minNetSpreadBps quantity) (iterations : ℕ) {lo hi : ℚ} (hlo : 0 ≤ lo)
    (hhi : quantity ≤ hi) :
    quantity ≤ searchLoop net minNetSpreadBps iterations lo hi lo +
      max (2 * searchEpsilon) ((hi - lo) / 2 ^ iterations) := by
  have hepsilon : 0 < searchEpsilon := by norm_num [searchEpsilon]
  induction iterations generalizing lo hi with
  | zero =>
    have hwidth : hi - lo ≤ max (2 * searchEpsilon) ((hi - lo) / 2 ^ 0) := by
      rw [pow_zero, div_one]
      exact le_max_right _ _
    rw [searchLoop]
    linarith
  | succ iterations ih =>
    have hclose : 2 * searchEpsilon ≤
        max (2 * searchEpsilon) ((hi - lo) / 2 ^ (iterations + 1)) := le_max_left _ _
    rw [searchLoop]
    split
    · linarith
    next hmid =>
      have hmid := not_lt.mp hmid
      -- a midpoint that does not net enough bounds the quantity
      have hbelow : ¬ NetsEnough net minNetSpreadBps ((lo + hi) / 2) → quantity ≤ (lo + hi) / 2 := by
        intro hnot
        by_contra hmore
        exact hnot (hfirst _ _ (hepsilon.trans_le hmid) (not_le.mp hmore).le henough)
      have hlower : (lo + hi) / 2 - lo = (hi - lo) / 2 := by ring
      have hupper : hi - (lo + hi) / 2 = (hi - lo) / 2 := by ring
      split
      next hnone =>
        have hq := hbelow (not_netsEnough_of_none hnone)
        have hnext := ih hlo hq
        rwa [hlower, half_width] at hnext
      next bps hbps =>
        split
        · split
          · linarith
          · have hnext := ih (hepsilon.trans_le hmid).le hhi
            rwa [hupper, half_width] at hnext
        next hless =>
          have hq := hbelow fun hmidEnough => hless ((netsEnough_iff hbps).mp hmidEnough)
          split
          · linarith
          · have hnext := ih hlo hq
            rwa [hlower, half_width] at hnext

end Search

/-! ### The net spread of the average prices -/

def netSpread (asks bids : List PriceLevel) (totalFeeRate quantity : ℚ) : ℚ :=
  (vwap quantity bids - vwap quantity asks) / vwap quantity asks * 10000 - totalFeeRate * 10000

section Spread
variable {asks bids : List PriceLevel} {small large : ℚ}

theorem vwap_pos (h : PositiveLevels asks) (hpos : 0 < small) (hdepth : small ≤ depth asks) :
    0 < vwap small asks :=
  div_pos (PricedLots.cost_pos h.sized h.priced hpos hdepth) hpos

theorem relative_gap_le {ask ask' bid bid' : ℚ} (hask : 0 < ask) (hasks : ask ≤ ask')
    (hbid : 0 ≤ bid) (hbids : bid' ≤ bid) : (bid' - ask') / ask' ≤ (bid - ask) / ask := by
  have hask' : 0 < ask' := hask.trans_le hasks
  rw [sub_div, sub_div, div_self hask.ne', div_self hask'.ne']
  have hratio : bid' / ask' ≤ bid / ask := by gcongr
  exact sub_le_sub_right hratio 1

variable (hasks : asks.Pairwise fun a b => a.price ≤ b.price)
  (hbids : bids.Pairwise fun a b => b.price ≤ a.price)
  (hposAsks : PositiveLevels asks) (hposBids : PositiveLevels bids)
include hasks hbids hposAsks hposBids

theorem netSpread_antitone (totalFeeRate : ℚ) (hpos : 0 < small) (hle : small ≤ large)
    (hdepthAsks : large ≤ depth asks) (hdepthBids : large ≤ depth bids) :
    netSpread asks bids totalFeeRate large ≤ netSpread asks bids totalFeeRate small := by
  have hask : vwap small asks ≤ vwap large asks :=
    PricedLots.average_le hposAsks.sized hasks hpos hle hdepthAsks
  have hbid : vwap large bids ≤ vwap small bids :=
    PricedLots.average_ge hposBids.sized hbids hpos hle hdepthBids
  have hask0 : 0 < vwap small asks := vwap_pos hposAsks hpos (hle.trans hdepthAsks)
  have hbid0 : 0 < vwap small bids := vwap_pos hposBids hpos (hle.trans hdepthBids)
  have hgap := relative_gap_le hask0 hask hbid0.le hbid
  unfold netSpread
  linarith

end Spread

/-- No quantity nets more than the top of the book. -/
theorem netSpread_le_top {topAsk topBid : PriceLevel} {asks bids : List PriceLevel}
    (hasks : (topAsk :: asks).Pairwise fun a b => a.price ≤ b.price)
    (hbids : (topBid :: bids).Pairwise fun a b => b.price ≤ a.price)
    (hposAsks : PositiveLevels (topAsk :: asks)) (hposBids : PositiveLevels (topBid :: bids))
    (totalFeeRate : ℚ) {quantity : ℚ} (hpos : 0 < quantity)
    (hdepthAsks : quantity ≤ depth (topAsk :: asks)) (hdepthBids : quantity ≤ depth (topBid :: bids)) :
    netSpread (topAsk :: asks) (topBid :: bids) totalFeeRate quantity ≤
      (topBid.price - topAsk.price) / topAsk.price * 10000 - totalFeeRate * 10000 := by
  have hask : topAsk.price ≤ vwap quantity (topAsk :: asks) :=
    (le_div_iff₀ hpos).mpr
      (PricedLots.le_cost hposAsks.sized (PricedLots.Ascending.head_le hasks) hpos.le hdepthAsks)
  have hbid : vwap quantity (topBid :: bids) ≤ topBid.price :=
    (div_le_iff₀ hpos).mpr
      (PricedLots.cost_le hposBids.sized (PricedLots.Descending.le_head hbids) hpos.le hdepthBids)
  have htopAsk : 0 < topAsk.price := (hposAsks topAsk (List.mem_cons_self ..)).1
  have htopBid : 0 < topBid.price := (hposBids topBid (List.mem_cons_self ..)).1
  have hgap := relative_gap_le htopAsk hask htopBid.le hbid
  unfold netSpread
  linarith

/-! ### The result -/

section Result
variable {buyBook sellBook : OrderBookSnapshot} {totalFeeRate quantity : ℚ}

theorem netSpreadAt_iff (hbuy : PositiveLevels buyBook.asks) (hsell : PositiveLevels sellBook.bids)
    (hpos : 0 < quantity) (bps : ℚ) :
    netSpreadAt buyBook sellBook totalFeeRate quantity = some bps ↔
      quantity ≤ min (depth buyBook.asks) (depth sellBook.bids) ∧
        bps = netSpread buyBook.asks sellBook.bids totalFeeRate quantity := by
  have hfillBuy : (effectiveBuyPrice buyBook quantity).fullyFillable = true ↔
      quantity ≤ depth buyBook.asks :=
    fullyFillable_iff_le_depth hbuy hpos _
  have hfillSell : (effectiveSellPrice sellBook quantity).fullyFillable = true ↔
      quantity ≤ depth sellBook.bids :=
    fullyFillable_iff_le_depth hsell hpos _
  unfold netSpreadAt
  dsimp only
  rw [le_min_iff, ← hfillBuy, ← hfillSell]
  by_cases hboth : (effectiveBuyPrice buyBook quantity).fullyFillable = true ∧
      (effectiveSellPrice sellBook quantity).fullyFillable = true
  · obtain ⟨hfirst, hsecond⟩ := hboth
    have hask : (effectiveBuyPrice buyBook quantity).avgPrice = vwap quantity buyBook.asks :=
      avgPrice_eq _ hfirst
    have hbid : (effectiveSellPrice sellBook quantity).avgPrice = vwap quantity sellBook.bids :=
      avgPrice_eq _ hsecond
    have hask0 := vwap_pos hbuy hpos (hfillBuy.mp hfirst)
    rw [hfirst, hsecond, hask, hbid, if_neg (by simp), if_neg hask0.not_ge, Option.some.injEq]
    exact ⟨fun h => ⟨⟨rfl, rfl⟩, h.symm⟩, fun h => h.2.symm⟩
  · rw [if_pos (by simpa [imp_iff_not_or] using hboth)]
    exact iff_of_false nofun fun h => hboth h.1

theorem netSpreadAt_enoughFirst (hbuy : SpreadDetector.Sorted buyBook ∧ buyBook.Positive)
    (hsell : SpreadDetector.Sorted sellBook ∧ sellBook.Positive)
    (minNetSpreadBps totalFeeRate : ℚ) :
    EnoughFirst (netSpreadAt buyBook sellBook totalFeeRate) minNetSpreadBps := by
  intro small large hpos hle henough
  obtain ⟨bps, hbps, hmin⟩ := henough
  obtain ⟨hdepth, rfl⟩ := (netSpreadAt_iff hbuy.2.1 hsell.2.2 (hpos.trans_le hle) bps).mp hbps
  have hdepths := le_min_iff.mp hdepth
  have hnet := netSpread_antitone hbuy.1.1 hsell.1.2 hbuy.2.1 hsell.2.2 totalFeeRate hpos hle
    hdepths.1 hdepths.2
  exact ⟨_, (netSpreadAt_iff hbuy.2.1 hsell.2.2 hpos _).mpr ⟨hle.trans hdepth, rfl⟩, hmin.trans hnet⟩

theorem maxArbQuantity_eq_searchLoop (hbuy : SpreadDetector.Sorted buyBook ∧ buyBook.Positive)
    (hsell : SpreadDetector.Sorted sellBook ∧ sellBook.Positive) {minNetSpreadBps : ℚ}
    (hpos : 0 < quantity) (hdepthAsks : quantity ≤ depth buyBook.asks)
    (hdepthBids : quantity ≤ depth sellBook.bids)
    (henough : minNetSpreadBps ≤ netSpread buyBook.asks sellBook.bids totalFeeRate quantity) :
    maxArbQuantity buyBook sellBook minNetSpreadBps totalFeeRate =
      searchLoop (netSpreadAt buyBook sellBook totalFeeRate) minNetSpreadBps 50 0
        (min (depth buyBook.asks) (depth sellBook.bids)) 0 := by
  obtain ⟨⟨hascending, _⟩, hposAsks, _⟩ := hbuy
  obtain ⟨⟨_, hdescending⟩, _, hposBids⟩ := hsell
  have hsome : 0 < min (depth buyBook.asks) (depth sellBook.bids) :=
    hpos.trans_le (le_min hdepthAsks hdepthBids)
  unfold maxArbQuantity
  split
  next topAsk asks topBid bids hasks hbids =>
    rw [hasks, hbids] at hsome henough
    rw [hasks] at hascending hposAsks hdepthAsks
    rw [hbids] at hdescending hposBids hdepthBids
    have htop := netSpread_le_top hascending hdescending hposAsks hposBids totalFeeRate hpos
      hdepthAsks hdepthBids
    have hprice : 0 < topAsk.price := (hposAsks topAsk (List.mem_cons_self ..)).1
    rw [if_neg hprice.not_ge, hasks, hbids]
    dsimp only
    rw [if_neg (henough.trans htop).not_gt]
    exact if_neg hsome.not_ge
  next hempty =>
    cases hasks : buyBook.asks with
    | nil =>
      rw [hasks] at hdepthAsks
      exact absurd hdepthAsks hpos.not_ge
    | cons topAsk asks =>
      cases hbids : sellBook.bids with
      | nil =>
        rw [hbids] at hdepthBids
        exact absurd hdepthBids hpos.not_ge
      | cons topBid bids => exact absurd hbids (hempty topAsk asks topBid bids hasks)

/-- The result can be traded and nets enough, and every quantity that nets enough is
within the resolution of the search. -/
theorem maxArbQuantity_near_maximal (hbuy : SpreadDetector.Sorted buyBook ∧ buyBook.Positive)
    (hsell : SpreadDetector.Sorted sellBook ∧ sellBook.Positive)
    (minNetSpreadBps totalFeeRate : ℚ) :
    let maxQty := min (depth buyBook.asks) (depth sellBook.bids)
    let net := netSpread buyBook.asks sellBook.bids totalFeeRate
    let found := maxArbQuantity buyBook sellBook minNetSpreadBps totalFeeRate
    (0 < found → found ≤ maxQty ∧ minNetSpreadBps ≤ net found) ∧
      ∀ quantity, 0 < quantity → quantity ≤ maxQty → minNetSpreadBps ≤ net quantity →
        quantity ≤ found + max (2 / 10 ^ 8) (maxQty / 2 ^ 50) := by
  intro maxQty net found
  constructor
  · intro hpos
    rcases maxArbQuantity_spec buyBook sellBook minNetSpreadBps totalFeeRate with hzero | hfound
    · exact absurd hzero hpos.ne'
    · obtain ⟨bps, hbps, hle⟩ := hfound
      obtain ⟨hdepth, rfl⟩ := (netSpreadAt_iff hbuy.2.1 hsell.2.2 hpos bps).mp hbps
      exact ⟨hdepth, hle⟩
  · intro quantity hpos hdepth henough
    have hfirst := netSpreadAt_enoughFirst hbuy hsell minNetSpreadBps totalFeeRate
    have hnet : NetsEnough (netSpreadAt buyBook sellBook totalFeeRate) minNetSpreadBps quantity :=
      ⟨_, (netSpreadAt_iff hbuy.2.1 hsell.2.2 hpos _).mpr ⟨hdepth, rfl⟩, henough⟩
    have hnear := searchLoop_near hfirst hnet 50 le_rfl hdepth
    have hresolution : 2 * searchEpsilon = 2 / 10 ^ 8 := by norm_num [searchEpsilon]
    rw [sub_zero, hresolution] at hnear
    obtain ⟨hdepthAsks, hdepthBids⟩ := le_min_iff.mp hdepth
    have hsearch : found = searchLoop _ minNetSpreadBps 50 0 maxQty 0 :=
      maxArbQuantity_eq_searchLoop hbuy hsell hpos hdepthAsks hdepthBids henough
    rw [hsearch]
    exact hnear

def layeredAsks : OrderBookSnapshot :=
  { exchange := .okx, pair := "BTC-USDT", bids := [⟨99, 1⟩, ⟨98, 4⟩], asks := [⟨100, 2⟩, ⟨110, 3⟩] }

def layeredBids : OrderBookSnapshot :=
  { exchange := .binance, pair := "BTC-USDT", bids := [⟨106, 2⟩, ⟨104, 3⟩],
    asks := [⟨107, 1⟩, ⟨108, 2⟩] }

/-- The first levels net enough, the whole books do not. -/
theorem maxArbQuantity_layered :
    let maxQty := min (depth layeredAsks.asks) (depth layeredBids.bids)
    let net := netSpread layeredAsks.asks layeredBids.bids 0
    let found := maxArbQuantity layeredAsks layeredBids 10 0
    (10 ≤ net 2 ∧ net 5 < 10) ∧
    (0 < found → found ≤ maxQty ∧ 10 ≤ net found) ∧
      ∀ quantity, 0 < quantity → quantity ≤ maxQty → 10 ≤ net quantity →
        quantity ≤ found + max (2 / 10 ^ 8) (maxQty / 2 ^ 50) := by
  have hbuy : SpreadDetector.Sorted layeredAsks ∧ layeredAsks.Positive :=
    ⟨⟨by decide +kernel, by decide +kernel⟩, by decide +kernel, by decide +kernel⟩
  have hsell : SpreadDetector.Sorted layeredBids ∧ layeredBids.Positive :=
    ⟨⟨by decide +kernel, by decide +kernel⟩, by decide +kernel, by decide +kernel⟩
  exact ⟨⟨by decide +kernel, by decide +kernel⟩, maxArbQuantity_near_maximal hbuy hsell 10 0⟩

end Result

end CryptoArbBot.DepthAnalyzer
