/-
# `Portfolio.Facts` — what an event id stands for

A fact is what a call sets out to record: the acceptance of an order, a cross and its legs, a fill and its shares, a fee
revision and its shares, a terminal state, a reconciliation.  `Fact.id` is the text that the ledger makes its id of.  The
identifiers in it come from the caller and may contain colons, so two facts can get one id; `Names.Apart` says of the
identifiers in use that they cannot, and `Fact.eq_of_id` that it is enough.
-/
import LiveTrader.Lib.Joined
import LiveTrader.Portfolio.Calls

namespace LiveTrader.Portfolio

open Lib Lib.Py Lib.Joined

/-! ## Facts -/

/-- A sleeve and an intent. -/
abbrev Leg := String × Text

/-- What is recorded about an execution: its fill or one of its fee revisions, as a whole or for one sleeve and intent. -/
inductive Part where
  | fill (leg : Option Leg)
  | revision (count : ℕ) (leg : Option Leg)
  | terminal
  deriving DecidableEq

inductive Fact where
  | acceptance (scopeId brokerOrderId : Text)
  | cross (scopeId : Text) (planId : String) (leg : Option Leg)
  | execution (scopeId brokerOrderId sourceEventId : Text) (part : Part)
  | reconciliation (scopeId : Text) (contentHash : String)
  deriving DecidableEq

/-- The transition that a FEE_ADJUSTMENT of an execution seals. -/
def Event.transition (scopeId sourceEventId : Text) (event : Event) : Option Revision :=
  match event.payload with
  | .feeAdjustment a =>
      if event.scopeId = scopeId ∧ a.sourceEventId = sourceEventId then
        some { scopeId, sourceEventId, quantity := a.brokerQuantity, price := a.price
               previousFee := a.previousFee, revisedFee := a.revisedFee }
      else none
  | _ => none

/-- The fee revisions of an execution, in order. -/
def transitions (log : List Event) (scopeId sourceEventId : Text) : List Revision :=
  log.filterMap (Event.transition scopeId sourceEventId)

/-- The fact that an event records behind `before`; revisions of an execution are counted. -/
def Event.fact (before : List Event) (event : Event) : Fact :=
  match event.payload with
  | .brokerOrderAccepted _ brokerOrderId _ => .acceptance event.scopeId brokerOrderId
  | .internalCross planId _ => .cross event.scopeId planId none
  | .sleeveInternalCross planId intentId _ _ => .cross event.scopeId planId (some (event.sleeveId, intentId))
  | .brokerFill f => .execution event.scopeId f.brokerOrderId f.sourceEventId (.fill none)
  | .sleeveFill _ brokerOrderId sourceEventId a _ =>
      .execution event.scopeId brokerOrderId sourceEventId (.fill (some (a.sleeveId.val, a.intentId)))
  | .feeAdjustment a => .execution event.scopeId a.brokerOrderId a.sourceEventId
      (.revision (transitions before event.scopeId a.sourceEventId).length none)
  | .sleeveFeeAdjustment _ brokerOrderId sourceEventId a => .execution event.scopeId brokerOrderId sourceEventId
      (.revision ((transitions before event.scopeId sourceEventId).length - 1) (some (a.sleeveId.val, a.intentId)))
  | .brokerOrderTerminal _ brokerOrderId sourceEventId _ => .execution event.scopeId brokerOrderId sourceEventId .terminal
  | .restartReconciliation _ contentHash => .reconciliation event.scopeId contentHash

/-- The events behind `before`, each with its id and its fact. -/
def factsFrom : List Event → List Event → List (String × Fact)
  | _, [] => []
  | before, event :: events => (event.eventId, event.fact before) :: factsFrom (before ++ [event]) events

/-- **Ids identify facts.** -/
def Identifies (log : List Event) : Prop := ∀ p ∈ factsFrom [] log, ∀ q ∈ factsFrom [] log, p.1 = q.1 → p.2 = q.2

/-! ## Their ids -/

/-- The digest in the ids of a revision. -/
def digest (H : Hashes) (log : List Event) (scopeId sourceEventId : Text) (count : ℕ) : String :=
  (((transitions log scopeId sourceEventId).map H.revision)[count]?).getD ""

/-- The whole, or one share. -/
def shareText : Option Leg → String
  | none => "portfolio"
  | some leg => join "sleeve" (join leg.1 leg.2.val)

def Part.text (digest : ℕ → String) : Part → String
  | .fill leg => shareText leg
  | .revision count leg => join "fee-adjustment" (join (digest count) (shareText leg))
  | .terminal => "status"

def Fact.scopeId : Fact → Text
  | .acceptance scopeId _ | .cross scopeId _ _ | .execution scopeId _ _ _ | .reconciliation scopeId _ => scopeId

def Fact.kind : Fact → String
  | .acceptance .. => "order"
  | .cross .. => "cross"
  | .execution .. => "execution"
  | .reconciliation .. => "reconcile"

/-- What follows the kind. -/
def Fact.rest (H : Hashes) (log : List Event) : Fact → String
  | .acceptance _ brokerOrderId => brokerOrderId.val
  | .cross _ planId none => join planId "portfolio"
  | .cross _ planId (some leg) => join planId (join leg.1 leg.2.val)
  | .execution scopeId _ sourceEventId part => join sourceEventId.val (part.text (digest H log scopeId sourceEventId))
  | .reconciliation _ contentHash => contentHash

/-- The event id. -/
def Fact.id (H : Hashes) (log : List Event) (fact : Fact) : String := join fact.scopeId.val (join fact.kind (fact.rest H log))

/-! ## Identifiers in use -/

/-- The identifiers that a run draws from, and the order that an execution is about. -/
structure Names where
  scopes : List String
  plans : List String
  sources : List String
  sleeves : List String
  orderOf : Text → Text → Text

/-- No identifier goes on, after a colon, where another one of its kind ends; of scopes and executions only where the
ledger goes on there as well. -/
structure Names.Apart (H : Hashes) (N : Names) : Prop where
  scopes : ∀ a ∈ N.scopes, ∀ b ∈ N.scopes, ∀ kind ∈ ["order", "cross", "execution"], ¬ Leads (join a kind) b
  plans : ∀ a ∈ N.plans, ∀ b ∈ N.plans, Leads a b → a = b
  shares : ∀ a ∈ N.sources, ∀ b ∈ N.sources, ¬ Leads (join a "sleeve") b
  revisions : ∀ a ∈ N.sources, ∀ b ∈ N.sources, ∀ r, ¬ Leads (join a (join "fee-adjustment" (H.revision r))) b
  sleeves : ∀ a ∈ N.sleeves, ∀ b ∈ N.sleeves, Leads a b → a = b

/-- What the ledger takes from `hexdigest()`. -/
structure HexDigests (H : Hashes) : Prop where
  revision : ∀ r, ∀ c ∈ (H.revision r).toList, c ∈ "0123456789abcdef".toList
  reconciliation : ∀ p, ∀ c ∈ (H.reconciliation p).toList, c ∈ "0123456789abcdef".toList

def Names.HasLeg (N : Names) (leg : Option Leg) : Prop := ∀ x ∈ leg, x.1 ∈ N.sleeves

def Names.HasPart (N : Names) (count : ℕ) : Part → Prop
  | .fill leg => N.HasLeg leg
  | .revision k leg => k < count ∧ N.HasLeg leg
  | .terminal => True

/-- The identifiers of a fact are in use, and a revision is one of the log. -/
def Names.Has (N : Names) (log : List Event) : Fact → Prop
  | .acceptance scopeId _ => scopeId.val ∈ N.scopes
  | .cross scopeId planId leg => scopeId.val ∈ N.scopes ∧ planId ∈ N.plans ∧ N.HasLeg leg
  | .execution scopeId brokerOrderId sourceEventId part => scopeId.val ∈ N.scopes ∧ sourceEventId.val ∈ N.sources ∧
      brokerOrderId = N.orderOf scopeId sourceEventId ∧ N.HasPart (transitions log scopeId sourceEventId).length part
  | .reconciliation scopeId contentHash => scopeId.val ∈ N.scopes ∧ Plain contentHash

section injective

variable {H : Hashes} {N : Names} {log : List Event} {f g : Fact}

theorem plain_of_hex {s : String} (h : ∀ c ∈ s.toList, c ∈ "0123456789abcdef".toList) : Plain s := by
  intro hcolon
  have := h ':' hcolon
  simp at this

theorem not_hex_word {s : String} (h : ∀ c ∈ s.toList, c ∈ "0123456789abcdef".toList) : s ≠ "sleeve" ∧ s ≠ "fee-adjustment" := by
  constructor
  · rintro rfl
    have := h 's' (by simp)
    simp at this
  · rintro rfl
    have := h '-' (by simp)
    simp at this

theorem Fact.plain_kind (f : Fact) : Plain f.kind := by
  have hall : Plain "order" ∧ Plain "cross" ∧ Plain "execution" ∧ Plain "reconcile" := by simp [Plain]
  obtain ⟨horder, hcross, hexecution, hreconcile⟩ := hall
  cases f with
  | acceptance => exact horder
  | cross => exact hcross
  | execution => exact hexecution
  | reconciliation => exact hreconcile

theorem Names.Has.scope (hf : N.Has log f) : f.scopeId.val ∈ N.scopes := by
  cases f with
  | acceptance => exact hf
  | cross => exact hf.1
  | execution => exact hf.1
  | reconciliation => exact hf.1

/-- Where one scope goes on after another, the facts of the two keep apart. -/
theorem Names.Apart.no_longer_scope (hN : N.Apart H) (hf : N.Has log f) (hg : N.Has log g) {w : String}
    (hscope : g.scopeId.val = join f.scopeId.val w) (hrest : join f.kind (f.rest H log) = join w (join g.kind (g.rest H log))) :
    False := by
  have hleads : Leads (join f.scopeId.val f.kind) g.scopeId.val := by
    rw [hscope]
    exact (leads_of_join f.plain_kind hrest).join _
  cases f with
  | acceptance => exact hN.scopes _ hf.scope _ hg.scope "order" (by simp) hleads
  | cross => exact hN.scopes _ hf.scope _ hg.scope "cross" (by simp) hleads
  | execution => exact hN.scopes _ hf.scope _ hg.scope "execution" (by simp) hleads
  | reconciliation scopeId contentHash =>
    -- a content hash has no colon, and what stands behind the longer scope has one
    have hhash : Plain contentHash := hf.2
    rcases join_cases hrest with ⟨-, heq⟩ | ⟨_, -, heq⟩ | ⟨_, heq, -⟩
    · have : contentHash = join _ _ := heq
      exact not_plain_join (this ▸ hhash)
    · have : contentHash = join _ _ := heq
      exact not_plain_join (this ▸ hhash)
    · exact not_plain_join (heq ▸ Fact.plain_kind (.reconciliation scopeId contentHash))

theorem leg_eq (hN : N.Apart H) {leg leg' : Leg} (h : leg.1 ∈ N.sleeves) (h' : leg'.1 ∈ N.sleeves)
    (heq : join leg.1 leg.2.val = join leg'.1 leg'.2.val) : leg = leg' := by
  rcases join_cases heq with ⟨hsleeve, hintent⟩ | ⟨w, hw, -⟩ | ⟨w, hw, -⟩
  · exact Prod.ext hsleeve (Subtype.ext hintent)
  · have hsame := hN.sleeves _ h _ h' (.inr ⟨w, hw⟩)
    rw [hsame] at heq
    exact Prod.ext hsame (Subtype.ext (join_right_inj heq))
  · have hsame := hN.sleeves _ h' _ h (.inr ⟨w, hw⟩)
    rw [hsame] at heq
    exact Prod.ext hsame.symm (Subtype.ext (join_right_inj heq))

/-- The legs of one cross, and the cross as a whole. -/
theorem cross_rest_eq (hN : N.Apart H) {leg leg' : Option Leg} (h : N.HasLeg leg) (h' : N.HasLeg leg')
    (heq : (leg.elim "portfolio" fun x => join x.1 x.2.val) = leg'.elim "portfolio" fun x => join x.1 x.2.val) : leg = leg' := by
  have hplain : Plain "portfolio" := by simp [Plain]
  cases leg with
  | none =>
    cases leg' with
    | none => rfl
    | some x =>
      have hjoin : "portfolio" = join x.1 x.2.val := heq
      exact absurd (hjoin ▸ hplain) not_plain_join
  | some x =>
    cases leg' with
    | none =>
      have hjoin : join x.1 x.2.val = "portfolio" := heq
      exact absurd (hjoin.symm ▸ hplain) not_plain_join
    | some y => exact congrArg some (leg_eq hN (h x rfl) (h' y rfl) heq)

theorem Fact.cross_rest (scopeId : Text) (planId : String) (leg : Option Leg) :
    Fact.rest H log (.cross scopeId planId leg) = join planId (leg.elim "portfolio" fun x => join x.1 x.2.val) := by
  cases leg <;> rfl

/-! ### Executions -/

theorem plain_words : Plain "portfolio" ∧ Plain "status" ∧ Plain "sleeve" ∧ Plain "fee-adjustment" := by
  simp [Plain]

theorem shareText_inj (hN : N.Apart H) {leg leg' : Option Leg} (h : N.HasLeg leg) (h' : N.HasLeg leg')
    (heq : shareText leg = shareText leg') : leg = leg' := by
  obtain ⟨hplain, -, -, -⟩ := plain_words
  cases leg with
  | none =>
    cases leg' with
    | none => rfl
    | some x =>
      have hjoin : "portfolio" = join "sleeve" _ := heq
      exact absurd (hjoin ▸ hplain) not_plain_join
  | some x =>
    cases leg' with
    | none =>
      have hjoin : join "sleeve" _ = "portfolio" := heq
      exact absurd (hjoin.symm ▸ hplain) not_plain_join
    | some y => exact congrArg some (leg_eq hN (h x rfl) (h' y rfl) (join_right_inj heq))

/-- Before a share's first colon stands no digest. -/
theorem shareText_ne_join {leg : Option Leg} {d v : String} (hd : Plain d) (hne : d ≠ "sleeve") : shareText leg ≠ join d v := by
  intro heq
  obtain ⟨hportfolio, -, hsleeve, -⟩ := plain_words
  cases leg with
  | none =>
    have hjoin : "portfolio" = join d v := heq
    exact not_plain_join (hjoin ▸ hportfolio)
  | some leg => exact hne (join_of_plain hsleeve hd heq).1.symm

theorem shareText_ne_status (leg : Option Leg) : shareText leg ≠ "status" := by
  intro heq
  obtain ⟨-, hstatus, -, -⟩ := plain_words
  cases leg with
  | none => exact absurd heq (show "portfolio" ≠ "status" by simp)
  | some leg =>
    have hjoin : join "sleeve" _ = "status" := heq
    exact not_plain_join (hjoin.symm ▸ hstatus)

/-- What follows an execution id never starts with a digest. -/
theorem Part.text_ne_digest {digest : ℕ → String} {part : Part} {d v : String} (hd : Plain d) (hsleeve : d ≠ "sleeve")
    (hadjust : d ≠ "fee-adjustment") : part.text digest ≠ join d v := by
  intro heq
  obtain ⟨-, hstatus, -, hplain⟩ := plain_words
  cases part with
  | fill leg => exact shareText_ne_join hd hsleeve heq
  | revision count leg => exact hadjust (join_of_plain hplain hd heq).1.symm
  | terminal =>
    have hjoin : "status" = join d v := heq
    exact not_plain_join (hjoin ▸ hstatus)

theorem digest_inj {scopeId source : Text} (hnodup : ((transitions log scopeId source).map H.revision).Nodup) {i j : ℕ}
    (hi : i < (transitions log scopeId source).length) (hj : j < (transitions log scopeId source).length)
    (h : digest H log scopeId source i = digest H log scopeId source j) : i = j := by
  have hi' : i < ((transitions log scopeId source).map H.revision).length := by rwa [List.length_map]
  have hj' : j < ((transitions log scopeId source).map H.revision).length := by rwa [List.length_map]
  simp only [digest, List.getElem?_eq_getElem hi', List.getElem?_eq_getElem hj', Option.getD_some] at h
  exact (hnodup.getElem_inj_iff).mp h

variable (hH : HexDigests H)
include hH

theorem hex_digest {scopeId sourceEventId : Text} {count : ℕ} (h : count < (transitions log scopeId sourceEventId).length) :
    ∃ r, digest H log scopeId sourceEventId count = H.revision r ∧ Plain (H.revision r) ∧
      H.revision r ≠ "sleeve" ∧ H.revision r ≠ "fee-adjustment" := by
  refine ⟨(transitions log scopeId sourceEventId)[count], ?_, plain_of_hex (hH.revision _), not_hex_word (hH.revision _)⟩
  simp [digest, h]

/-- One execution id does not go on where the other one ends. -/
theorem Names.Apart.no_longer_source (hN : N.Apart H) {scopeId source source' : Text} {part part' : Part} {w : String}
    (hsource : source.val ∈ N.sources) (hsource' : source'.val ∈ N.sources)
    (hpart : N.HasPart (transitions log scopeId source).length part) (hw : source'.val = join source.val w)
    (htext : part.text (digest H log scopeId source) = join w (part'.text (digest H log scopeId source'))) : False := by
  obtain ⟨hportfolio, hstatus, hsleeve, hadjust⟩ := plain_words
  cases part with
  | fill leg =>
    cases leg with
    | none =>
      have hjoin : "portfolio" = join w _ := htext
      exact not_plain_join (hjoin ▸ hportfolio)
    | some leg =>
      refine hN.shares _ hsource _ hsource' ?_
      rw [hw]
      exact (leads_of_join hsleeve htext).join _
  | revision count leg =>
    have hcount : count < (transitions log scopeId source).length := hpart.1
    obtain ⟨r, hr, hplain, hne, hne'⟩ := hex_digest hH hcount
    have hjoin : join (join "fee-adjustment" (H.revision r)) (shareText leg) =
        join w (part'.text (digest H log scopeId source')) := by
      rw [join_assoc, ← hr]
      exact htext
    have hleads : Leads (join "fee-adjustment" (H.revision r)) w := by
      rcases join_cases hjoin with ⟨hsame, -⟩ | ⟨v, hlonger, -⟩ | ⟨v, hfirst, hrest⟩
      · exact .inl hsame.symm
      · exact .inr ⟨v, hlonger⟩
      · -- the shorter id would go on with a part that starts with the digest
        rcases join_cases hfirst with ⟨-, rfl⟩ | ⟨u, -, hu⟩ | ⟨u, hu, -⟩
        · exact absurd hrest (Part.text_ne_digest hplain hne hne')
        · exact absurd (hu ▸ hplain) not_plain_join
        · exact absurd (hu ▸ hadjust) not_plain_join
    refine hN.revisions _ hsource _ hsource' r ?_
    rw [hw]
    exact hleads.join _
  | terminal =>
    have hjoin : "status" = join w _ := htext
    exact not_plain_join (hjoin ▸ hstatus)

theorem Part.eq_of_text (hN : N.Apart H) {scopeId source : Text} (hnodup : ((transitions log scopeId source).map H.revision).Nodup)
    {part part' : Part} (hpart : N.HasPart (transitions log scopeId source).length part)
    (hpart' : N.HasPart (transitions log scopeId source).length part')
    (h : part.text (digest H log scopeId source) = part'.text (digest H log scopeId source)) : part = part' := by
  obtain ⟨-, hstatus, -, hadjust⟩ := plain_words
  have hword : Plain "fee-adjustment" ∧ "fee-adjustment" ≠ "sleeve" := ⟨hadjust, by simp⟩
  cases part with
  | fill leg =>
    cases part' with
    | fill leg' => exact congrArg Part.fill (shareText_inj hN hpart hpart' h)
    | revision => exact absurd h (shareText_ne_join hword.1 hword.2)
    | terminal => exact absurd h (shareText_ne_status leg)
  | revision count leg =>
    cases part' with
    | fill => exact absurd h.symm (shareText_ne_join hword.1 hword.2)
    | revision count' leg' =>
      have hcount : count < (transitions log scopeId source).length := hpart.1
      have hcount' : count' < (transitions log scopeId source).length := hpart'.1
      obtain ⟨r, hr, hplain, -, -⟩ := hex_digest hH hcount
      obtain ⟨r', hr', hplain', -, -⟩ := hex_digest hH hcount'
      have hrest : join (digest H log scopeId source count) (shareText leg) =
          join (digest H log scopeId source count') (shareText leg') := join_right_inj h
      obtain ⟨hdigest, hshare⟩ := join_of_plain (hr ▸ hplain) (hr' ▸ hplain') hrest
      rw [digest_inj hnodup hpart.1 hpart'.1 hdigest, shareText_inj hN hpart.2 hpart'.2 hshare]
    | terminal =>
      have hjoin : join "fee-adjustment" _ = "status" := h
      exact absurd (hjoin.symm ▸ hstatus) not_plain_join
  | terminal =>
    cases part' with
    | fill leg' => exact absurd h.symm (shareText_ne_status leg')
    | revision =>
      have hjoin : "status" = join "fee-adjustment" _ := h
      exact absurd (hjoin ▸ hstatus) not_plain_join
    | terminal => rfl

/-- **Ids tell facts apart.** -/
theorem Fact.eq_of_id (hN : N.Apart H) (hnodup : ∀ scopeId source, ((transitions log scopeId source).map H.revision).Nodup)
    (hf : N.Has log f) (hg : N.Has log g) (h : f.id H log = g.id H log) : f = g := by
  rcases join_cases h with ⟨hscope, hrest⟩ | ⟨w, hw, hrest⟩ | ⟨w, hw, hrest⟩
  · obtain ⟨hkind, hrest⟩ := join_of_plain f.plain_kind g.plain_kind hrest
    have hscope : f.scopeId = g.scopeId := Subtype.ext hscope
    cases f with
    | acceptance scopeId brokerOrderId =>
      cases g with
      | acceptance scopeId' brokerOrderId' =>
        obtain rfl : scopeId = scopeId' := hscope
        exact congrArg _ (Subtype.ext hrest)
      | _ => simp [Fact.kind] at hkind
    | cross scopeId planId leg =>
      cases g with
      | cross scopeId' planId' leg' =>
        obtain rfl : scopeId = scopeId' := hscope
        rw [cross_rest, cross_rest] at hrest
        obtain rfl : planId = planId' := by
          rcases join_cases hrest with ⟨hsame, -⟩ | ⟨w, hlonger, -⟩ | ⟨w, hlonger, -⟩
          · exact hsame
          · exact hN.plans _ hf.2.1 _ hg.2.1 (.inr ⟨w, hlonger⟩)
          · exact (hN.plans _ hg.2.1 _ hf.2.1 (.inr ⟨w, hlonger⟩)).symm
        rw [cross_rest_eq hN hf.2.2 hg.2.2 (join_right_inj hrest)]
      | _ => simp [Fact.kind] at hkind
    | execution scopeId brokerOrderId source part =>
      cases g with
      | execution scopeId' brokerOrderId' source' part' =>
        obtain rfl : scopeId = scopeId' := hscope
        obtain ⟨_, hsource, horder, hpart⟩ := hf
        obtain ⟨_, hsource', horder', hpart'⟩ := hg
        rcases join_cases hrest with ⟨hsame, htext⟩ | ⟨w, hlonger, htext⟩ | ⟨w, hlonger, htext⟩
        · obtain rfl : source = source' := Subtype.ext hsame
          rw [horder, horder', Part.eq_of_text hH hN (hnodup scopeId source) hpart hpart' htext]
        · exact (hN.no_longer_source hH hsource hsource' hpart hlonger htext).elim
        · exact (hN.no_longer_source hH hsource' hsource hpart' hlonger htext).elim
      | _ => simp [Fact.kind] at hkind
    | reconciliation scopeId contentHash =>
      cases g with
      | reconciliation scopeId' contentHash' =>
        obtain rfl : scopeId = scopeId' := hscope
        exact congrArg _ hrest
      | _ => simp [Fact.kind] at hkind
  · exact (hN.no_longer_scope hf hg hw hrest).elim
  · exact (hN.no_longer_scope hg hf hw hrest).elim

end injective

end LiveTrader.Portfolio
