import CryptoArbBot.Exchange.PlaceOrder
import CryptoArbBot.Library.Substrings

/-!
# Canonical pairs and native symbols (exchange/*/*_adapter.cpp)

Every adapter has a table of pairs and a rule for the pairs that are not in it. The
rule by which Bybit and MEXC read a symbol back cuts it at its first `USDT`.
-/

namespace CryptoArbBot
open Substrings

/-! ### The tables -/

/-- The lines of `build_pair_map` for these bases. -/
def usdtPairs (separator : String) (bases : List String) : List (String × String) :=
  bases.map fun base => (base ++ "-USDT", base ++ separator ++ "USDT")

def listedBases : List String :=
  ["BTC", "ETH", "SOL", "XRP", "ADA", "DOGE", "DOT", "LINK", "AVAX", "ARB", "OP"]

def reverseLookup (pairMap : List (String × String)) (nativePair : String) : Option String :=
  (pairMap.find? fun entry => entry.2 = nativePair).map Prod.fst

def endsWith (text suffix : String) : Bool :=
  text.length > suffix.length && text.toList.drop (text.length - suffix.length) == suffix.toList

/-- A hyphen is put before the first `USDT`, unless the symbol begins with it. -/
def hyphenAtUsdt (nativePair : String) : String :=
  match find "USDT".toList nativePair.toList with
  | some pos => if pos > 0 then String.ofList (nativePair.toList.take pos) ++ "-USDT" else nativePair
  | none => nativePair

namespace Binance

def buildPairMap : List (String × String) :=
  usdtPairs "" ["BTC", "ETH", "SOL", "XRP", "ADA", "DOGE", "DOT", "LINK", "AVAX", "MATIC", "ARB", "OP"]

def canonicalPair (pairMap : List (String × String)) (nativePair : String) : String :=
  match reverseLookup pairMap nativePair with
  | some canonical => canonical
  | none =>
    match ["USDT", "USD", "USDC", "BTC", "ETH"].find? (endsWith nativePair) with
    | some q => String.ofList (nativePair.toList.take (nativePair.length - q.length)) ++ "-" ++ q
    | none => nativePair

end Binance

namespace Okx

def buildPairMap : List (String × String) := usdtPairs "-" listedBases

def canonicalPair (nativePair : String) : String := nativePair

end Okx

namespace Bybit

def buildPairMap : List (String × String) := usdtPairs "" listedBases

def canonicalPair (pairMap : List (String × String)) (nativePair : String) : String :=
  (reverseLookup pairMap nativePair).getD (hyphenAtUsdt nativePair)

end Bybit

namespace Mexc

def buildPairMap : List (String × String) := usdtPairs "" listedBases

def canonicalPair (pairMap : List (String × String)) (nativePair : String) : String :=
  (reverseLookup pairMap nativePair).getD (hyphenAtUsdt nativePair)

end Mexc

namespace Gateio

def buildPairMap : List (String × String) := usdtPairs "_" listedBases

def canonicalPair (pairMap : List (String × String)) (nativePair : String) : String :=
  (reverseLookup pairMap nativePair).getD
    (String.ofList (nativePair.toList.map fun c => if c = '_' then '-' else c))

end Gateio

example : Gateio.buildPairMap.find? (fun entry => entry.1 = "DOGE-USDT") = some ("DOGE-USDT", "DOGE_USDT") := by
  decide

/-! ### The five adapters -/

def Venue.buildPairMap : Venue → List (String × String)
  | .binance => Binance.buildPairMap
  | .okx => Okx.buildPairMap
  | .bybit => Bybit.buildPairMap
  | .mexc => Mexc.buildPairMap
  | .gateio => Gateio.buildPairMap

/-- `pair_map_` as the constructor fills it; an `unordered_map` is walked in any order. -/
structure PairMap (venue : Venue) where
  entries : List (String × String)
  perm : entries.Perm venue.buildPairMap

def Adapter.withPairs {venue : Venue} (a : Adapter) (pairs : PairMap venue) : Adapter :=
  { a with pairMap := fun pair => (pairs.entries.find? fun entry => entry.1 = pair).map Prod.snd }

def Venue.normalizePair (a : Adapter) (pair : String) : Venue → String
  | .binance => Binance.normalizePair a pair
  | .okx => Okx.normalizePair a pair
  | .bybit => Bybit.normalizePair a pair
  | .mexc => Mexc.normalizePair a pair
  | .gateio => Gateio.normalizePair a pair

def Venue.canonicalPair (pairMap : List (String × String)) (nativePair : String) : Venue → String
  | .binance => Binance.canonicalPair pairMap nativePair
  | .okx => Okx.canonicalPair nativePair
  | .bybit => Bybit.canonicalPair pairMap nativePair
  | .mexc => Mexc.canonicalPair pairMap nativePair
  | .gateio => Gateio.canonicalPair pairMap nativePair

/-! ### Pairs against USDT -/

/-- Upper-case letters and digits, at least one. -/
structure TradedBase (base : String) : Prop where
  nonempty : base ≠ ""
  upper : ∀ c ∈ base.toList, c.isUpper = true ∨ c.isDigit = true

def HoldsUsdt (base : String) : Prop := "USDT".toList <:+: base.toList

instance (base : String) : Decidable (HoldsUsdt base) :=
  inferInstanceAs (Decidable ("USDT".toList <:+: base.toList))

/-- What stands between the base and `USDT` in a native symbol. -/
def Venue.separator : Venue → String
  | .binance | .bybit | .mexc => ""
  | .okx => "-"
  | .gateio => "_"

theorem TradedBase.not_mem {base : String} (h : TradedBase base) {c : Char}
    (hc : c.isUpper = false ∧ c.isDigit = false) : c ∉ base.toList := by
  intro hmem
  have hkind := h.upper c hmem
  rw [hc.1, hc.2] at hkind
  simp at hkind

theorem append_usdt_injective {separator base base' : String}
    (h : base ++ separator ++ "USDT" = base' ++ separator ++ "USDT") : base = base' := by
  rw [String.append_left_inj, String.append_left_inj] at h
  exact h

theorem mem_usdtPairs {separator : String} {bases : List String} {entry : String × String}
    (hbases : ∀ base ∈ bases, ¬ HoldsUsdt base) (h : entry ∈ usdtPairs separator bases) :
    ∃ base, ¬ HoldsUsdt base ∧ entry = (base ++ "-USDT", base ++ separator ++ "USDT") := by
  obtain ⟨base, hbase, rfl⟩ := List.mem_map.mp h
  exact ⟨base, hbases base hbase, rfl⟩

namespace PairMap
variable {venue : Venue} (pairs : PairMap venue)

theorem mem_entries {entry : String × String} (h : entry ∈ pairs.entries) :
    ∃ base, ¬ HoldsUsdt base ∧ entry = (base ++ "-USDT", base ++ venue.separator ++ "USDT") := by
  have hlisted : ∀ base ∈ listedBases, ¬ HoldsUsdt base := by decide
  have htable := pairs.perm.mem_iff.mp h
  cases venue with
  | binance => exact mem_usdtPairs (by decide) htable
  | okx => exact mem_usdtPairs hlisted htable
  | bybit => exact mem_usdtPairs hlisted htable
  | mexc => exact mem_usdtPairs hlisted htable
  | gateio => exact mem_usdtPairs hlisted htable

theorem lookup_eq {base native : String}
    (h : (pairs.entries.find? fun entry => entry.1 = base ++ "-USDT").map Prod.snd = some native) :
    native = base ++ venue.separator ++ "USDT" := by
  obtain ⟨entry, hfound, rfl⟩ := Option.map_eq_some_iff.mp h
  obtain ⟨listed, -, rfl⟩ := pairs.mem_entries (List.mem_of_find?_eq_some hfound)
  have hkey : listed ++ "-USDT" = base ++ "-USDT" := by simpa using List.find?_some hfound
  rw [(String.append_left_inj "-USDT").mp hkey]

theorem reverseLookup_eq {base canonical : String}
    (h : reverseLookup pairs.entries (base ++ venue.separator ++ "USDT") = some canonical) :
    canonical = base ++ "-USDT" ∧ ¬ HoldsUsdt base := by
  obtain ⟨entry, hfound, rfl⟩ := Option.map_eq_some_iff.mp h
  obtain ⟨listed, hholds, rfl⟩ := pairs.mem_entries (List.mem_of_find?_eq_some hfound)
  have hnative : listed ++ venue.separator ++ "USDT" = base ++ venue.separator ++ "USDT" := by
    simpa using List.find?_some hfound
  rw [append_usdt_injective hnative] at hholds ⊢
  exact ⟨rfl, hholds⟩

end PairMap

/-! ### There -/

theorem removeHyphens_usdt {base : String} (h : TradedBase base) :
    removeHyphens (base ++ "-USDT") = base ++ "USDT" := by
  have hbase : base.toList.filter (· ≠ '-') = base.toList := by
    rw [List.filter_eq_self]
    intro c hc
    simp only [ne_eq, decide_eq_true_eq]
    intro heq
    exact h.not_mem (by decide) (heq ▸ hc)
  apply String.toList_inj.mp
  unfold removeHyphens
  rw [String.toList_ofList, String.toList_append, List.filter_append, hbase, String.toList_append]
  rfl

theorem replace_eq_self {cs : List Char} {old new : Char} (h : old ∉ cs) :
    cs.map (fun c => if c = old then new else c) = cs := by
  have hkept : ∀ c ∈ cs, (if c = old then new else c) = id c := by
    intro c hc
    exact if_neg (fun heq : c = old => h (heq ▸ hc))
  rw [List.map_congr_left hkept, List.map_id]

theorem Venue.normalizePair_usdt {venue : Venue} (pairs : PairMap venue) (a : Adapter) {base : String}
    (h : TradedBase base) :
    venue.normalizePair (a.withPairs pairs) (base ++ "-USDT") = base ++ venue.separator ++ "USDT" := by
  have hrule : ∀ rule, rule = base ++ venue.separator ++ "USDT" →
      ((a.withPairs pairs).pairMap (base ++ "-USDT")).getD rule = base ++ venue.separator ++ "USDT" := by
    intro rule hrule
    cases hfound : (a.withPairs pairs).pairMap (base ++ "-USDT") with
    | none => exact hrule
    | some native => exact pairs.lookup_eq hfound
  have hremoved := removeHyphens_usdt h
  cases venue with
  | binance => exact hrule _ (by simpa [Venue.separator] using hremoved)
  | okx => exact hrule _ (by simp [Venue.separator, String.append_assoc])
  | bybit => exact hrule _ (by simpa [Venue.separator] using hremoved)
  | mexc => exact hrule _ (by simpa [Venue.separator] using hremoved)
  | gateio =>
    have hbase : base.toList.map (fun c => if c = '-' then '_' else c) = base.toList :=
      replace_eq_self (h.not_mem (by decide))
    refine hrule _ ?_
    apply String.toList_inj.mp
    simp [Venue.separator, hbase]

/-! ### And back -/

/-- The first `USDT` is the last one where the base does not hold one. -/
theorem hyphenAtUsdt_iff {base : String} (h : base ≠ "") :
    hyphenAtUsdt (base ++ "USDT") = base ++ "-USDT" ↔ ¬ HoldsUsdt base := by
  have hpos : 0 < base.toList.length := by
    rw [List.length_pos_iff]
    simpa using h
  have hne : base ++ "USDT" ≠ base ++ "-USDT" := by
    intro heq
    have hsuffix := (String.append_right_inj base).mp heq
    exact absurd hsuffix (by decide)
  have hfirst : find "USDT".toList (base.toList ++ "USDT".toList) = some base.toList.length ↔
      ¬ "USDT".toList <:+: base.toList := find_append_iff (by decide) (by decide) base.toList
  unfold HoldsUsdt hyphenAtUsdt
  rw [← hfirst, String.toList_append]
  cases find "USDT".toList (base.toList ++ "USDT".toList) with
  | none => exact iff_of_false hne (by simp)
  | some pos =>
    dsimp only
    rw [Option.some.injEq]
    split
    next hsome =>
      rw [String.append_left_inj]
      constructor
      · intro hcut
        have hlen := congrArg (fun text => text.toList.length) hcut
        simp only [String.toList_ofList, List.length_take, List.length_append] at hlen
        have husdt : "USDT".toList.length = 4 := by decide
        omega
      · intro hat
        rw [hat, List.take_left, String.ofList_toList]
    next hzero =>
      refine iff_of_false hne ?_
      omega

theorem suffixRule_usdt {base : String} (h : base ≠ "") :
    ["USDT", "USD", "USDC", "BTC", "ETH"].find? (endsWith (base ++ "USDT")) = some "USDT" := by
  have hends : endsWith (base ++ "USDT") "USDT" = true := by
    have hback : (base.toList ++ "USDT".toList).drop base.length = "USDT".toList :=
      List.drop_left' String.length_toList
    simp only [endsWith, String.length_append, Nat.add_sub_cancel, String.toList_append, hback]
    simpa [Nat.pos_iff_ne_zero] using h
  rw [List.find?_cons, hends]

theorem binance_canonicalPair_usdt (pairs : PairMap .binance) {base : String} (h : base ≠ "") :
    Binance.canonicalPair pairs.entries (base ++ "USDT") = base ++ "-USDT" := by
  unfold Binance.canonicalPair
  cases hlisted : reverseLookup pairs.entries (base ++ "USDT") with
  | some canonical => exact (pairs.reverseLookup_eq (by simpa [Venue.separator] using hlisted)).1
  | none =>
    rw [suffixRule_usdt h]
    have hfront : (base.toList ++ "USDT".toList).take base.length = base.toList :=
      List.take_left' String.length_toList
    simp only [String.length_append, Nat.add_sub_cancel, String.toList_append, hfront, String.ofList_toList]
    apply String.toList_inj.mp
    simp

theorem gateio_canonicalPair_usdt (pairs : PairMap .gateio) {base : String} (h : TradedBase base) :
    Gateio.canonicalPair pairs.entries (base ++ "_" ++ "USDT") = base ++ "-USDT" := by
  unfold Gateio.canonicalPair
  cases hlisted : reverseLookup pairs.entries (base ++ "_" ++ "USDT") with
  | some canonical => exact (pairs.reverseLookup_eq hlisted).1
  | none =>
    have hbase : base.toList.map (fun c => if c = '_' then '-' else c) = base.toList :=
      replace_eq_self (h.not_mem (by decide))
    apply String.toList_inj.mp
    simp [hbase]

theorem firstRule_usdt_iff {venue : Venue} (pairs : PairMap venue) (hvenue : venue.separator = "")
    {base : String} (h : base ≠ "") :
    (reverseLookup pairs.entries (base ++ "USDT")).getD (hyphenAtUsdt (base ++ "USDT")) = base ++ "-USDT" ↔
      ¬ HoldsUsdt base := by
  cases hlisted : reverseLookup pairs.entries (base ++ "USDT") with
  | none => exact hyphenAtUsdt_iff h
  | some canonical =>
    have hnative : base ++ venue.separator ++ "USDT" = base ++ "USDT" := by
      rw [hvenue, String.append_empty]
    rw [← hnative] at hlisted
    obtain ⟨hcanonical, hholds⟩ := pairs.reverseLookup_eq hlisted
    exact iff_of_true hcanonical hholds

theorem Venue.canonicalPair_usdt_iff {venue : Venue} (pairs : PairMap venue) {base : String} (h : TradedBase base) :
    venue.canonicalPair pairs.entries (base ++ venue.separator ++ "USDT") = base ++ "-USDT" ↔
      (venue = .bybit ∨ venue = .mexc → ¬ HoldsUsdt base) := by
  cases venue with
  | binance =>
    simpa [Venue.canonicalPair, Venue.separator] using binance_canonicalPair_usdt pairs h.nonempty
  | okx => simp [Venue.canonicalPair, Venue.separator, Okx.canonicalPair, String.append_assoc]
  | bybit =>
    simpa [Venue.canonicalPair, Venue.separator, Bybit.canonicalPair] using firstRule_usdt_iff pairs rfl h.nonempty
  | mexc =>
    simpa [Venue.canonicalPair, Venue.separator, Mexc.canonicalPair] using firstRule_usdt_iff pairs rfl h.nonempty
  | gateio => simpa [Venue.canonicalPair, Venue.separator] using gateio_canonicalPair_usdt pairs h

end CryptoArbBot
