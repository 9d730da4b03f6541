/-
The platform fee and the split of a release.

The fee is the floored share of an amount at a rate out of 10000
(`Lib/Rate`), so it is exact for every bigint amount although the
product is not one. A release pays the seller what is left: fee and net
are the two parts of the escrowed amount, in the checked arithmetic, on
the three balances and in the ledger entry.
-/
import Skrynia.Lib.Rate
import Skrynia.Orders.Success

namespace Skrynia

open Relational

-- ================================================================ the fee

/-- The fee is the share at the rate, whenever the inputs are accepted. -/
theorem platformFeeCents_eq_ok_iff {amount fee : MoneyCents} {bps : Nat}
    (hamount : 0 ≤ amount.val) (hbps : bps ≤ 10000) :
    platformFeeCents amount bps = .ok fee
      ↔ fee.val = Rate.share 10000 bps amount.val := by
  unfold platformFeeCents
  rw [if_neg (by omega), if_neg (by omega), bigintToMoneyCents_eq_ok]
  exact Iff.rfl

/-- What `platformFeeCents` computes: a floor within the amount. -/
structure FeeOf (amount : MoneyCents) (bps : Nat) (fee : MoneyCents) :
    Prop where
  computed : platformFeeCents amount bps = .ok fee
  floor_le : fee.val * 10000 ≤ amount.val * bps
  lt_floor : amount.val * bps < (fee.val + 1) * 10000
  nonneg : 0 ≤ fee.val
  le_amount : fee.val ≤ amount.val

/-- A rate of at most the whole gives a fee that a column can hold. -/
theorem exists_feeOf {amount : MoneyCents} {bps : Nat}
    (hamount : 0 ≤ amount.val) (hbps : bps ≤ 10000) :
    ∃ fee, FeeOf amount bps fee := by
  obtain ⟨fee, hfee⟩ := platformFeeCents_ok hbps hamount
  have hshare := (platformFeeCents_eq_ok_iff hamount hbps).mp hfee
  have hbounds := Rate.share_bounds (r := (bps : Int)) (x := amount.val)
    (show (0 : Int) < 10000 by decide)
  rw [← hshare] at hbounds
  obtain ⟨hnonneg, hle⟩ := platformFeeCents_le hfee
  exact ⟨fee, hfee, hbounds.1, hbounds.2, hnonneg, hle⟩

-- ============================================================== the parts

/-- The two parts of an escrowed amount, and the checked arithmetic that
makes them and puts them back together. -/
structure PartsOf (amount fee net : MoneyCents) : Prop where
  net_computed : subtractMoneyCents amount fee = .ok net
  fee_nonneg : 0 ≤ fee.val
  net_nonneg : 0 ≤ net.val
  total : net.val + fee.val = amount.val
  add_net_fee : addMoneyCents net fee = .ok amount
  subtract_net : subtractMoneyCents amount net = .ok fee
  zero_add_net : addMoneyCents .zero net = .ok net
  zero_add_fee : addMoneyCents .zero fee = .ok fee

/-- A fee and the difference are the two parts. -/
theorem partsOf_of_val {amount fee net : MoneyCents} (hfee : 0 ≤ fee.val)
    (hle : fee.val ≤ amount.val)
    (hnet : net.val = amount.val - fee.val) : PartsOf amount fee net where
  net_computed := subtractMoneyCents_eq_ok.mpr hnet
  fee_nonneg := hfee
  net_nonneg := by omega
  total := by omega
  add_net_fee := addMoneyCents_eq_ok.mpr (by omega)
  subtract_net := subtractMoneyCents_eq_ok.mpr (by omega)
  zero_add_net := addMoneyCents_eq_ok.mpr (by simp)
  zero_add_fee := addMoneyCents_eq_ok.mpr (by simp)

/-- Every fee up to the amount leaves a net part. -/
theorem exists_partsOf {amount fee : MoneyCents} (hfee : 0 ≤ fee.val)
    (hle : fee.val ≤ amount.val) : ∃ net, PartsOf amount fee net := by
  have hmax := amount.inRange.2
  have hrange : InBigintRange (amount.val - fee.val) := by
    unfold InBigintRange postgresBigintMin postgresBigintMax at *
    omega
  exact ⟨⟨_, hrange⟩, partsOf_of_val hfee hle rfl⟩

/-- A part overflows a balance only where the balance leaves no room. -/
theorem addMoneyCents_range_iff {balance part : MoneyCents}
    (hbalance : 0 ≤ balance.val) (hpart : 0 ≤ part.val) :
    addMoneyCents balance part = .error .range
      ↔ postgresBigintMax < balance.val + part.val := by
  unfold addMoneyCents
  rw [bigintToMoneyCents_eq_error]
  unfold InBigintRange postgresBigintMin
  simp only [and_true]
  omega

/-- What the seller's escrow covers can be taken from it. -/
theorem subtractMoneyCents_of_covered {escrow amount : MoneyCents}
    (hamount : 0 ≤ amount.val) (hle : amount.val ≤ escrow.val) :
    ∃ next, subtractMoneyCents escrow amount = .ok next ∧ 0 ≤ next.val := by
  obtain ⟨net, hnet⟩ := exists_partsOf hamount hle
  exact ⟨net, hnet.net_computed, hnet.net_nonneg⟩

-- ============================================================ the release

/-- A release books the two parts of its order's amount. -/
structure SplitBooked (db db' : Db) (o : OrderRow) (net : MoneyCents) :
    Prop where
  parts : PartsOf o.amountCents o.feeCents net
  seller : db'.balance (.available o.sellerId o.currency)
    = db.balance (.available o.sellerId o.currency) + net.val
  escrow : db'.balance (.escrow o.sellerId o.currency)
    = db.balance (.escrow o.sellerId o.currency) - o.amountCents.val
  revenue : db'.balance (.revenue o.currency)
    = db.balance (.revenue o.currency) + o.feeCents.val
  recorded : Recorded (escrowReleaseEntry o.id o.sellerId o.amountCents
    o.feeCents net o.currency) db.ledgerEntries db'.ledgerEntries

/-- A release books both parts. -/
theorem Released.splitBooked {input : ReleaseEscrowInput} {db db' : Db}
    {o o' : OrderRow} (h : Released input db db' o o') :
    ∃ net, SplitBooked db db' o net := by
  obtain ⟨net, hnet, hbooked⟩ := h.booked
  have hparts := partsOf_of_val o.fee_nonneg h.fee_le hnet
  have hmoved : ∀ b : Balance, db'.balance b = _ := fun b => by
    rw [hbooked.balance b,
      net_escrowReleaseEntry hparts.fee_nonneg hparts.net_nonneg]
  refine ⟨net, hparts, ?_, ?_, ?_, hbooked.recorded⟩
  · rw [hmoved]
    simp [Balance.account]
  · rw [hmoved]
    simp [Balance.account]
    omega
  · rw [hmoved]
    simp [Balance.account]

-- ===================================================== money is conserved

/-- Fees are exact floors, monotone in amount and rate, additive up to
one cent, and a release splits its amount into fee and net without
leaving the bigint range. -/
theorem platform_fee_conserves_money {a b : MoneyCents} {p q : Nat}
    (ha : 0 ≤ a.val) (hb : 0 ≤ b.val)
    (hsum : a.val + b.val ≤ postgresBigintMax) (hpq : p ≤ q)
    (hq : q ≤ 10000) :
    (∃ ab fa fb fab faq, addMoneyCents a b = .ok ab
      ∧ FeeOf a p fa ∧ FeeOf b p fb ∧ FeeOf ab p fab ∧ FeeOf a q faq
      ∧ fa.val = a.val * p / 10000
      ∧ fa.val ≤ fab.val ∧ fa.val ≤ faq.val
      ∧ fa.val + fb.val ≤ fab.val ∧ fab.val ≤ fa.val + fb.val + 1
      ∧ ∃ net, PartsOf a fa net)
    ∧ (∀ o : OrderRow, o.feeCents.val ≤ o.amountCents.val →
        ∃ net, PartsOf o.amountCents o.feeCents net
        ∧ (∀ escrow : MoneyCents, o.amountCents.val ≤ escrow.val →
            ∃ next, subtractMoneyCents escrow o.amountCents = .ok next)
        ∧ ∀ balance : MoneyCents, 0 ≤ balance.val →
          (addMoneyCents balance net = .error .range
            ↔ postgresBigintMax < balance.val + net.val)
          ∧ (addMoneyCents balance o.feeCents = .error .range
            ↔ postgresBigintMax < balance.val + o.feeCents.val))
    ∧ ∀ cfg now input db db' r,
        Commits (releaseEscrow cfg now input) db r db' →
        ∃ o net, db.orders.find? input.orderId = some o
          ∧ SplitBooked db db' o net := by
  refine ⟨?_, ?_, ?_⟩
  · have hab : InBigintRange (a.val + b.val) :=
      ⟨by unfold postgresBigintMin; omega, hsum⟩
    have hp : p ≤ 10000 := Nat.le_trans hpq hq
    have hab₀ : 0 ≤ a.val + b.val := by omega
    have hn : (0 : Int) < 10000 := by decide
    have hp₀ : (0 : Int) ≤ p := by omega
    obtain ⟨fa, hfa⟩ := exists_feeOf ha hp
    obtain ⟨fb, hfb⟩ := exists_feeOf hb hp
    obtain ⟨fab, hfab⟩ : ∃ fee, FeeOf ⟨a.val + b.val, hab⟩ p fee :=
      exists_feeOf hab₀ hp
    obtain ⟨faq, hfaq⟩ := exists_feeOf ha hq
    have ea := (platformFeeCents_eq_ok_iff ha hp).mp hfa.computed
    have eb := (platformFeeCents_eq_ok_iff hb hp).mp hfb.computed
    have eab := (platformFeeCents_eq_ok_iff hab₀ hp).mp hfab.computed
    have eaq := (platformFeeCents_eq_ok_iff ha hq).mp hfaq.computed
    have hadd := Rate.share_add (r := (p : Int)) (x := a.val) (y := b.val) hn
    refine ⟨⟨a.val + b.val, hab⟩, fa, fb, fab, faq,
      addMoneyCents_eq_ok.mpr rfl, hfa, hfb, hfab, hfaq, ea, ?_, ?_, ?_, ?_,
      exists_partsOf hfa.nonneg hfa.le_amount⟩
    · rw [ea, eab]
      exact Rate.share_mono_amount hn hp₀ (by show a.val ≤ a.val + b.val; omega)
    · rw [ea, eaq]
      exact Rate.share_mono_rate hn ha (by omega)
    · rw [ea, eb, eab]
      exact hadd.1
    · rw [ea, eb, eab]
      exact hadd.2
  · intro o hle
    obtain ⟨net, hparts⟩ := exists_partsOf o.fee_nonneg hle
    refine ⟨net, hparts, ?_, ?_⟩
    · intro escrow hcovered
      have hamount : 0 ≤ o.amountCents.val := Int.le_of_lt o.amount_pos
      obtain ⟨next, hnext, -⟩ :=
        subtractMoneyCents_of_covered hamount hcovered
      exact ⟨next, hnext⟩
    · intro balance hbalance
      exact ⟨addMoneyCents_range_iff hbalance hparts.net_nonneg,
        addMoneyCents_range_iff hbalance hparts.fee_nonneg⟩
  · intro cfg now input db db' r h
    obtain ⟨o, ho⟩ := releaseEscrow_released h
    obtain ⟨net, hnet⟩ := ho.splitBooked
    have hfound := ho.moved.found
    rw [ho.order_eq] at hfound
    exact ⟨o, net, hfound, hnet⟩

/-- At the end of the bigint range the product of amount and rate is no
bigint, and the fee is still the floor. -/
theorem platform_fee_at_bigint_max :
    ∃ a fee net : MoneyCents, a.val = postgresBigintMax
      ∧ FeeOf a 1234 fee ∧ fee.val = 1138164109347879334
      ∧ PartsOf a fee net := by
  obtain ⟨⟨ab, fa, fb, fab, faq, -, hfa, -, -, -, hfloor, -, -, -, -,
    net, hnet⟩, -⟩ := platform_fee_conserves_money
      (a := ⟨postgresBigintMax, by decide⟩) (b := .zero) (p := 1234)
      (q := 10000) (by decide) (by decide) (by decide) (by decide)
      (by decide)
  exact ⟨_, fa, net, rfl, hfa, hfloor.trans (by decide), hnet⟩

end Skrynia
