import ClipboardHelper.Library.Ledger
import ClipboardHelper.WaylandDevice

/-!
# The offers of the Wayland device

Every offer that `data_offer` introduces is to be destroyed exactly once, and
`offer_mimes_` is to hold only offers that are alive.  `DrainOtherOffers`,
`OnDeviceSelection` and the teardown take an offer out of the map when they
destroy it; `S_DevicePrimarySelection` does not.

In the ledger below an offer enters with `data_offer`, leaves when it is
destroyed, and is held by the map.  A primary selection destroys an offer
that the map keeps; the books balance in every run if it is entered as coming
in a second time (`step_moves`).  So the offers have a sound life exactly in
the runs in which no primary selection names one
(**`offers_destroyed_once_iff`**).  `primary_selection_destroys_twice` is a
run in which text is selected with the mouse and the helper is closed.
-/

namespace WaylandOffers

open Library PasteFormats WaylandDevice

/-! ## The ledger -/

/-- The offers in `offer_mimes_`. -/
def tracked (d : Device) : List OfferProxy := d.offerMimes.map Prod.fst

def Obs.introduced? : Obs → Option OfferProxy
  | .introduced offer => some offer
  | _ => none

def Obs.destroyed? : Obs → Option OfferProxy
  | .destroyed offer => some offer
  | _ => none

/-- The offers introduced along a history, and those destroyed. -/
def introduced (h : List Obs) : List OfferProxy := h.filterMap Obs.introduced?
def destroyed (h : List Obs) : List OfferProxy := h.filterMap Obs.destroyed?

@[simp] theorem introduced_append (h os : List Obs) :
    introduced (h ++ os) = introduced h ++ introduced os :=
  List.filterMap_append

/-- The books of the offers. -/
def offers : Ledger Device Obs OfferProxy where
  enters
    | .introduced offer | .primary offer => {offer}
    | _ => 0
  leaves
    | .destroyed offer => {offer}
    | _ => 0
  held d := (tracked d : Multiset OfferProxy)

theorem left_eq_destroyed (h : List Obs) :
    offers.left h = (destroyed h : Multiset OfferProxy) := by
  induction h with
  | nil => rfl
  | cons o h ih =>
      rw [Ledger.left_cons, ih]
      cases o <;> simp [offers, destroyed, List.filterMap_cons, Obs.destroyed?]

/-- What has come in is what was introduced, and the primary selections. -/
theorem introduced_le_entered (h : List Obs) :
    (introduced h : Multiset OfferProxy) ≤ offers.entered h := by
  induction h with
  | nil => exact le_refl _
  | cons o h ih =>
      rw [Ledger.entered_cons]
      cases o with
      | introduced offer =>
          have hcons : (introduced (.introduced offer :: h) : Multiset OfferProxy) =
              {offer} + (introduced h : Multiset OfferProxy) := rfl
          rw [hcons]
          exact add_le_add_right ih {offer}
      | _ => exact ih.trans (Multiset.le_add_left _ _)

theorem entered_eq_introduced {h : List Obs} (hnone : ∀ offer, .primary offer ∉ h) :
    offers.entered h = (introduced h : Multiset OfferProxy) := by
  induction h with
  | nil => rfl
  | cons o h ih =>
      have htail := ih (fun offer hmem => hnone offer (List.mem_cons_of_mem _ hmem))
      rw [Ledger.entered_cons, htail]
      cases o with
      | primary offer => exact absurd List.mem_cons_self (hnone offer)
      | _ => simp [offers, introduced, List.filterMap_cons, Obs.introduced?]

/-- A primary selection counts once more. -/
theorem count_introduced_lt {h : List Obs} {offer : OfferProxy} (hmem : .primary offer ∈ h) :
    (introduced h).count offer < (offers.entered h).count offer := by
  obtain ⟨before, after, rfl⟩ := List.append_of_mem hmem
  have hbefore := Multiset.count_le_of_le offer (introduced_le_entered before)
  have hafter := Multiset.count_le_of_le offer (introduced_le_entered after)
  rw [Multiset.coe_count] at hbefore hafter
  have hhere : (offers.enters (.primary offer)).count offer = 1 :=
    Multiset.count_singleton_self offer
  have hsplit : introduced (before ++ .primary offer :: after) =
      introduced before ++ introduced after := by
    rw [introduced_append]
    rfl
  rw [hsplit, List.count_append, Ledger.entered_append, Ledger.entered_cons, Multiset.count_add,
    Multiset.count_add, hhere]
  omega

/-! ## The map and the library -/

/-- `offer_mimes_` is a map, and what is alive is in it. -/
structure Tracking (d : Device) : Prop where
  nodup : (tracked d).Nodup
  alive : d.proxies.Nodup
  inMap : ∀ offer ∈ d.proxies, offer ∈ tracked d

/-- What each event does to the offers: it moves them, and keeps the map. -/
structure Keeps (d d' : Device) (os : List Obs) : Prop where
  moves : offers.Moves d os d'
  tracking : Tracking d'

theorem Keeps.trans {d d' d'' : Device} {os os' : List Obs} (first : Keeps d d' os)
    (second : Keeps d' d'' os') : Keeps d d'' (os ++ os') :=
  ⟨first.moves.trans second.moves, second.tracking⟩

/-- A step that does not touch the offers. -/
theorem Keeps.still {d d' : Device} {os : List Obs} (h : Tracking d)
    (htracked : tracked d' = tracked d) (hproxies : d'.proxies = d.proxies)
    (hleft : offers.left os = 0) (hentered : offers.entered os = 0) : Keeps d d' os where
  moves := by
    have hheld : offers.held d' = offers.held d :=
      congrArg (fun l : List OfferProxy => (l : Multiset OfferProxy)) htracked
    rw [Ledger.Moves, hleft, hentered, zero_add, add_zero, hheld]
  tracking := by
    constructor
    · rw [htracked]
      exact h.nodup
    · rw [hproxies]
      exact h.alive
    · rw [htracked, hproxies]
      exact h.inMap

/-- Destroying a list of offers. -/
theorem left_map_destroyed (entries : List (OfferProxy × List Bytes)) :
    offers.left (entries.map fun e => .destroyed e.1) =
      (entries.map Prod.fst : Multiset OfferProxy) :=
  offers.left_map (fun _ => rfl) entries

theorem entered_map_destroyed (entries : List (OfferProxy × List Bytes)) :
    offers.entered (entries.map fun e => .destroyed e.1) = 0 := by
  refine offers.entered_eq_zero ?_
  intro o hmem
  obtain ⟨e, -, rfl⟩ := List.mem_map.mp hmem
  rfl

/-- The offers that a filter keeps and those that it drops. -/
theorem keys_filter_add (entries : List (OfferProxy × List Bytes))
    (keep : OfferProxy × List Bytes → Bool) :
    ((entries.filter fun e => !keep e).map Prod.fst : Multiset OfferProxy) +
        ((entries.filter keep).map Prod.fst : Multiset OfferProxy) =
      (entries.map Prod.fst : Multiset OfferProxy) := by
  induction entries with
  | nil => rfl
  | cons e entries ih =>
      rw [List.map_cons, ← Multiset.cons_coe, ← ih]
      cases hkeep : keep e with
      | true => simp [hkeep]
      | false => simp [hkeep]

/-- **`DrainOtherOffers`** destroys what it erases. -/
theorem drainOtherOffers_keeps {d : Device} (h : Tracking d) (keep : Option OfferProxy) :
    Keeps d (drainOtherOffers d keep).1 (drainOtherOffers d keep).2 where
  moves := by
    have hsplit := keys_filter_add d.offerMimes (fun e => decide (some e.1 = keep))
    simp only [← decide_not] at hsplit
    rw [Ledger.Moves, drainOtherOffers, left_map_destroyed, entered_map_destroyed, add_zero]
    exact hsplit
  tracking := by
    constructor
    · exact h.nodup.sublist (List.filter_sublist.map Prod.fst)
    · exact h.alive.filter _
    · intro offer hoffer
      obtain ⟨halive, hother⟩ := List.mem_filter.mp hoffer
      obtain ⟨e, he, rfl⟩ := List.mem_map.mp (h.inMap offer halive)
      refine List.mem_map.mpr ⟨e, List.mem_filter.mpr ⟨he, ?_⟩, rfl⟩
      by_contra hkeep
      have hin : e.1 ∈ (d.offerMimes.filter fun e => decide (some e.1 ≠ keep)).map Prod.fst :=
        List.mem_map.mpr ⟨e, List.mem_filter.mpr ⟨he, by simpa using hkeep⟩, rfl⟩
      exact absurd hin (of_decide_eq_true hother)

/-- `DrainOtherOffers` keeps the offer it is told to keep. -/
theorem mem_drainOtherOffers {d : Device} (h : Tracking d) {offer : OfferProxy}
    (hoffer : offer ∈ d.proxies) : offer ∈ tracked (drainOtherOffers d (some offer)).1 := by
  obtain ⟨e, he, rfl⟩ := List.mem_map.mp (h.inMap offer hoffer)
  exact List.mem_map.mpr ⟨e, List.mem_filter.mpr ⟨he, by simp⟩, rfl⟩

/-- An offer that is in the map is erased and destroyed. -/
theorem releaseOffer_keeps {d : Device} (h : Tracking d) {offer : OfferProxy}
    (hoffer : offer ∈ tracked d) : Keeps d (releaseOffer d offer).1 (releaseOffer d offer).2 where
  moves := by
    have herase : tracked (releaseOffer d offer).1 = (tracked d).erase offer := by
      rw [h.nodup.erase_eq_filter]
      simp only [tracked, releaseOffer, List.filter_map]
      congr 1
      apply List.filter_congr
      intro e _
      by_cases he : e.1 = offer
      · simp [he]
      · simp [he]
    have hback : (offer ::ₘ ((tracked d).erase offer : Multiset OfferProxy)) =
        (tracked d : Multiset OfferProxy) := by
      rw [Multiset.cons_coe]
      exact Multiset.coe_eq_coe.mpr (List.perm_cons_erase hoffer).symm
    have hheld : offers.held (releaseOffer d offer).1 =
        ((tracked d).erase offer : Multiset OfferProxy) :=
      congrArg (fun l : List OfferProxy => (l : Multiset OfferProxy)) herase
    rw [Ledger.Moves, hheld]
    calc offers.left [.destroyed offer] + ((tracked d).erase offer : Multiset OfferProxy)
        = offer ::ₘ ((tracked d).erase offer : Multiset OfferProxy) := by
          rw [Ledger.left_cons, Ledger.left_nil, add_zero]
          exact Multiset.singleton_add _ _
      _ = (tracked d : Multiset OfferProxy) := hback
      _ = offers.held d + offers.entered [.destroyed offer] := by
          rw [Ledger.entered_cons, Ledger.entered_nil, add_zero]
          exact (add_zero _).symm
  tracking := by
    constructor
    · exact h.nodup.sublist (List.filter_sublist.map Prod.fst)
    · exact h.alive.erase offer
    · intro other hother
      obtain ⟨hne, halive⟩ := (h.alive.mem_erase_iff).mp hother
      obtain ⟨e, he, rfl⟩ := List.mem_map.mp (h.inMap other halive)
      exact List.mem_map.mpr ⟨e, List.mem_filter.mpr ⟨he, by simpa using hne⟩, rfl⟩

theorem spawnDrain_keeps {d : Device} (h : Tracking d) (text pipe : Bool)
    (calls : List ReadCall) :
    Keeps d (spawnDrain d text pipe calls).1 (spawnDrain d text pipe calls).2 := by
  unfold spawnDrain
  split
  · exact Keeps.still h rfl rfl rfl rfl
  · exact Keeps.still h rfl rfl rfl rfl

/-- **`OnDeviceSelection`** destroys every offer but those it leaves in the
map. -/
theorem onDeviceSelection_keeps {d : Device} (h : Tracking d) {offer : Option OfferProxy}
    (hlive : ∀ o, offer = some o → o ∈ d.proxies) (overtaken pipe : Bool)
    (calls : List ReadCall) :
    Keeps d (onDeviceSelection d offer overtaken pipe calls).1
      (onDeviceSelection d offer overtaken pipe calls).2 := by
  cases offer with
  | none =>
      let cleared : Device :=
        { d with
          cachedClipboardText := none
          selection := if overtaken then d.selection else .empty }
      have hcleared : Keeps d cleared [.cleared] := Keeps.still h rfl rfl rfl rfl
      exact hcleared.trans (drainOtherOffers_keeps hcleared.tracking none)
  | some offer =>
      simp only [onDeviceSelection]
      split
      · let echoed : Device :=
          { d with selection := if overtaken then d.selection else .foreign none none }
        have hechoed : Keeps d echoed [] := Keeps.still h rfl rfl rfl rfl
        exact hechoed.trans (drainOtherOffers_keeps hechoed.tracking none)
      · have hdrained := drainOtherOffers_keeps h (some offer)
        have hreleased := releaseOffer_keeps hdrained.tracking
          (mem_drainOtherOffers h (hlive offer rfl))
        have htaken := hdrained.trans hreleased
        let worker := if (chosenMime d offer).isSome && pipe then some d.nextDrain else none
        let taken : Device :=
          { (releaseOffer (drainOtherOffers d (some offer)).1 offer).1 with
            selection := if overtaken then d.selection else .foreign worker none }
        have hnoted : Keeps (releaseOffer (drainOtherOffers d (some offer)).1 offer).1 taken [] :=
          Keeps.still htaken.tracking rfl rfl rfl rfl
        have hspawned := spawnDrain_keeps hnoted.tracking (chosenMime d offer).isSome pipe calls
        exact htaken.trans (hnoted.trans hspawned)

/-- The observations of the source side name no offer. -/
theorem entered_manager (os : List WaylandClipboard.Obs) :
    offers.entered (os.map .manager) = 0 := by
  refine offers.entered_eq_zero ?_
  intro o hmem
  obtain ⟨o, -, rfl⟩ := List.mem_map.mp hmem
  rfl

theorem left_manager (os : List WaylandClipboard.Obs) : offers.left (os.map .manager) = 0 := by
  refine offers.left_eq_zero ?_
  intro o hmem
  obtain ⟨o, -, rfl⟩ := List.mem_map.mp hmem
  rfl

/-- The teardown destroys what is left in the map. -/
theorem teardownWaylandObjects_keeps {d : Device} (h : Tracking d) :
    Keeps d (teardownWaylandObjects d).1 (teardownWaylandObjects d).2 where
  moves := by
    rw [Ledger.Moves, teardownWaylandObjects, left_map_destroyed, entered_map_destroyed]
    rfl
  tracking := by
    constructor
    · exact List.nodup_nil
    · exact h.alive.filter _
    · intro offer hoffer
      obtain ⟨halive, hother⟩ := List.mem_filter.mp hoffer
      exact absurd (h.inMap offer halive) (of_decide_eq_true hother)

/-- **Every step moves the offers**, whatever it is. -/
theorem step_keeps {lib : ImageLibrary} {d d' : Device} {a : Action} {os : List Obs}
    (hstep : Step lib d a d' os) (h : Tracking d) (hfresh : d.nextProxy ∉ tracked d) :
    Keeps d d' os := by
  cases hstep with
  | lifted => exact Keeps.still h rfl rfl (left_manager _) (entered_manager _)
  | @destroyed m os' =>
      have hlifted : Keeps d (lift d .destroy m) (os'.map .manager) :=
        Keeps.still h rfl rfl (left_manager _) (entered_manager _)
      exact hlifted.trans (teardownWaylandObjects_keeps hlifted.tracking)
  | introduced =>
      refine ⟨?_, ?_, ?_, ?_⟩
      · rw [Ledger.Moves, Ledger.left_cons, Ledger.left_nil, Ledger.entered_cons,
          Ledger.entered_nil, add_zero, add_zero, add_comm (offers.held d)]
        exact zero_add _
      · exact List.nodup_cons.mpr ⟨hfresh, h.nodup⟩
      · exact List.nodup_cons.mpr ⟨fun hmem => hfresh (h.inMap _ hmem), h.alive⟩
      · intro offer hoffer
        rcases List.mem_cons.mp hoffer with rfl | hoffer
        · exact List.mem_cons_self
        · exact List.mem_cons_of_mem _ (h.inMap offer hoffer)
  | mime =>
      refine Keeps.still h ?_ rfl rfl rfl
      simp only [tracked, onOfferMime, List.map_map]
      apply List.map_congr_left
      intro e _
      simp only [Function.comp]
      split <;> rfl
  | selected hstop hlive => exact onDeviceSelection_keeps h hlive _ _ _
  | @primary offer hstop hlive =>
      refine ⟨?_, h.nodup, h.alive.erase offer, ?_⟩
      · simp [Ledger.Moves, offers, tracked, add_comm]
      · intro other hother
        exact h.inMap other (List.mem_of_mem_erase hother)
  | @reported index w text callback hw hstage =>
      refine Keeps.still h rfl rfl ?_ ?_
      · cases callback <;> rfl
      · cases callback <;> rfl
  | noOffer | noPrimary | drained | gaveUp | stored | detached =>
      exact Keeps.still h rfl rfl rfl rfl

/-! ## The life of an offer -/

/-- What holds after every run. -/
structure Sound (h : List Obs) (d : Device) : Prop where
  balanced : offers.Balanced h d
  tracking : Tracking d
  fresh : ∀ offer ∈ introduced h, offer < d.nextProxy
  once : (introduced h).Nodup
  mapped : ∀ offer ∈ tracked d, offer ∈ introduced h
  primary : ∀ offer, .primary offer ∈ h → offer ∈ introduced h
  empty : d.manager.state.stop = true → tracked d = []

theorem sound_initial : Sound [] {} where
  balanced := rfl
  tracking := ⟨List.nodup_nil, List.nodup_nil, fun _ h => by cases h⟩
  fresh _ h := by cases h
  once := List.nodup_nil
  mapped _ h := by cases h
  primary _ h := by cases h
  empty h := by cases h

/-- An observation that neither introduces an offer nor names one for the
primary selection. -/
def Obs.ordinary : Obs → Bool
  | .introduced _ | .primary _ => false
  | _ => true

theorem introduced_ordinary {os : List Obs} (hos : ∀ o ∈ os, Obs.ordinary o = true) :
    introduced os = [] := by
  refine List.filterMap_eq_nil_iff.mpr ?_
  intro o ho
  have hord := hos o ho
  cases o with
  | introduced => cases hord
  | _ => rfl

theorem drainOtherOffers_tracked (d : Device) (keep : Option OfferProxy) :
    ∀ offer ∈ tracked (drainOtherOffers d keep).1, offer ∈ tracked d := by
  intro offer hoffer
  obtain ⟨e, he, rfl⟩ := List.mem_map.mp hoffer
  exact List.mem_map.mpr ⟨e, (List.mem_filter.mp he).1, rfl⟩

theorem ordinary_drainOtherOffers (d : Device) (keep : Option OfferProxy) :
    ∀ o ∈ (drainOtherOffers d keep).2, Obs.ordinary o = true := by
  intro o ho
  obtain ⟨e, -, rfl⟩ := List.mem_map.mp ho
  rfl

/-- A selection event introduces nothing. -/
theorem onDeviceSelection_ordinary (d : Device) (offer : Option OfferProxy)
    (overtaken pipe : Bool) (calls : List ReadCall) :
    (∀ o ∈ (onDeviceSelection d offer overtaken pipe calls).2, Obs.ordinary o = true) ∧
      (onDeviceSelection d offer overtaken pipe calls).1.nextProxy = d.nextProxy ∧
      ∀ o ∈ tracked (onDeviceSelection d offer overtaken pipe calls).1, o ∈ tracked d := by
  have hspawn : ∀ (d : Device) (text : Bool),
      (∀ o ∈ (spawnDrain d text pipe calls).2, Obs.ordinary o = true) ∧
        (spawnDrain d text pipe calls).1.nextProxy = d.nextProxy ∧
        tracked (spawnDrain d text pipe calls).1 = tracked d := by
    intro d text
    unfold spawnDrain
    split
    · exact ⟨by simp [Obs.ordinary], rfl, rfl⟩
    · exact ⟨by simp, rfl, rfl⟩
  unfold onDeviceSelection
  split
  · refine ⟨?_, rfl, drainOtherOffers_tracked _ none⟩
    intro o ho
    rcases List.mem_cons.mp ho with rfl | ho
    · rfl
    · exact ordinary_drainOtherOffers _ none o ho
  · rename_i offer
    split
    · exact ⟨ordinary_drainOtherOffers _ none, rfl, drainOtherOffers_tracked _ none⟩
    · obtain ⟨hobs, hnext, htracked⟩ := hspawn _ _
      refine ⟨?_, hnext, ?_⟩
      · intro o ho
        rcases List.mem_append.mp ho with ho | ho
        · rcases List.mem_append.mp ho with ho | ho
          · exact ordinary_drainOtherOffers _ _ o ho
          · rw [List.mem_singleton.mp ho]
            rfl
        · exact hobs o ho
      · intro o ho
        rw [htracked] at ho
        obtain ⟨e, he, rfl⟩ := List.mem_map.mp ho
        exact drainOtherOffers_tracked d (some offer) e.1
          (List.mem_map.mpr ⟨e, (List.mem_filter.mp he).1, rfl⟩)

/-- What a step introduces. -/
theorem step_introduces {lib : ImageLibrary} {d d' : Device} {a : Action} {os : List Obs}
    (hstep : Step lib d a d' os) :
    (introduced os = [] ∧ d'.nextProxy = d.nextProxy ∧ ∀ o ∈ tracked d', o ∈ tracked d) ∨
      (os = [.introduced d.nextProxy] ∧ d'.nextProxy = d.nextProxy + 1 ∧
        tracked d' = d.nextProxy :: tracked d) := by
  cases hstep with
  | introduced => exact Or.inr ⟨rfl, rfl, rfl⟩
  | lifted =>
      refine Or.inl ⟨introduced_ordinary ?_, rfl, fun _ ho => ho⟩
      intro o ho
      obtain ⟨o', -, rfl⟩ := List.mem_map.mp ho
      rfl
  | destroyed =>
      refine Or.inl ⟨introduced_ordinary ?_, rfl, fun _ ho => by cases ho⟩
      intro o ho
      rcases List.mem_append.mp ho with ho | ho
      · obtain ⟨o', -, rfl⟩ := List.mem_map.mp ho
        rfl
      · obtain ⟨e, -, rfl⟩ := List.mem_map.mp ho
        rfl
  | mime =>
      refine Or.inl ⟨rfl, rfl, ?_⟩
      intro o ho
      obtain ⟨e, he, rfl⟩ := List.mem_map.mp ho
      obtain ⟨e', he', rfl⟩ := List.mem_map.mp he
      refine List.mem_map.mpr ⟨e', he', ?_⟩
      split <;> rfl
  | selected hstop hlive =>
      obtain ⟨hord, hnext, htracked⟩ := onDeviceSelection_ordinary d _ _ _ _
      exact Or.inl ⟨introduced_ordinary hord, hnext, htracked⟩
  | @reported index w text callback hw hstage =>
      refine Or.inl ⟨?_, rfl, fun _ ho => ho⟩
      cases callback <;> rfl
  | noOffer | noPrimary | primary | drained | gaveUp | stored | detached =>
      exact Or.inl ⟨rfl, rfl, fun _ ho => ho⟩

/-- A primary selection names an offer that is alive. -/
theorem step_primary {lib : ImageLibrary} {d d' : Device} {a : Action} {os : List Obs}
    (hstep : Step lib d a d' os) {offer : OfferProxy} (hmem : .primary offer ∈ os) :
    offer ∈ d.proxies := by
  have hno : ∀ {os : List Obs}, (∀ o ∈ os, Obs.ordinary o = true) → .primary offer ∉ os := by
    intro os hord hin
    have hbad := hord _ hin
    cases hbad
  cases hstep with
  | primary hstop hlive =>
      rcases List.mem_cons.mp hmem with heq | hmem
      · cases heq
        exact hlive
      · simp at hmem
  | lifted => simp at hmem
  | destroyed => simp [teardownWaylandObjects] at hmem
  | selected hstop hlive =>
      exact absurd hmem (hno (onDeviceSelection_ordinary d _ _ _ _).1)
  | @reported index w text callback hw hstage => cases callback <;> simp at hmem
  | noOffer | introduced | mime | noPrimary | drained | gaveUp | stored | detached =>
      simp at hmem

/-- After the destructor the map is empty. -/
theorem step_empty {lib : ImageLibrary} {d d' : Device} {a : Action} {os : List Obs}
    (hstep : Step lib d a d' os) (hempty : d.manager.state.stop = true → tracked d = [])
    (hstop' : d'.manager.state.stop = true) : tracked d' = [] := by
  cases hstep with
  | lifted hstep halive => exact hempty ((stop_of_lifted hstep halive).symm.trans hstop')
  | destroyed => rfl
  | introduced hstop | primary hstop =>
      have hrunning : d.manager.state.stop = true := hstop'
      rw [hstop] at hrunning
      cases hrunning
  | selected hstop hlive =>
      rw [(onDeviceSelection_manager d _ _ _ _).1, hstop] at hstop'
      cases hstop'
  | @mime offer mime hlive =>
      have hnil := hempty hstop'
      rw [tracked, List.map_eq_nil_iff] at hnil
      rw [tracked, onOfferMime, hnil]
      rfl
  | noOffer | noPrimary | drained | gaveUp | stored | reported | detached =>
      exact hempty hstop'

theorem step_sound {lib : ImageLibrary} {h : List Obs} {d d' : Device} {a : Action}
    {os : List Obs} (hi : Sound h d) (hstep : Step lib d a d' os) : Sound (h ++ os) d' := by
  have hnew : d.nextProxy ∉ tracked d := by
    intro hmem
    exact absurd (hi.fresh _ (hi.mapped _ hmem)) (lt_irrefl _)
  have hkeeps := step_keeps hstep hi.tracking hnew
  have hprimary : ∀ offer, .primary offer ∈ h ++ os → offer ∈ introduced (h ++ os) := by
    intro offer hmem
    rw [introduced_append]
    rcases List.mem_append.mp hmem with hmem | hmem
    · exact List.mem_append_left _ (hi.primary offer hmem)
    · have hmapped := hi.tracking.inMap offer (step_primary hstep hmem)
      exact List.mem_append_left _ (hi.mapped offer hmapped)
  rcases step_introduces hstep with ⟨hnone, hnext, hsub⟩ | ⟨hone, hnext, htracked⟩
  · have hsame : introduced (h ++ os) = introduced h := by
      rw [introduced_append, hnone, List.append_nil]
    refine ⟨hi.balanced.step hkeeps.moves, hkeeps.tracking, ?_, ?_, ?_, hprimary,
      step_empty hstep hi.empty⟩
    · rw [hsame, hnext]
      exact hi.fresh
    · rw [hsame]
      exact hi.once
    · rw [hsame]
      exact fun offer hmem => hi.mapped offer (hsub offer hmem)
  · have hmore : introduced (h ++ os) = introduced h ++ [d.nextProxy] := by
      rw [introduced_append, hone]
      rfl
    refine ⟨hi.balanced.step hkeeps.moves, hkeeps.tracking, ?_, ?_, ?_, hprimary,
      step_empty hstep hi.empty⟩
    · intro offer hmem
      rw [hmore] at hmem
      rw [hnext]
      rcases List.mem_append.mp hmem with hmem | hmem
      · exact Nat.lt_succ_of_lt (hi.fresh offer hmem)
      · rw [List.mem_singleton.mp hmem]
        exact Nat.lt_succ_self _
    · rw [hmore, List.nodup_append]
      refine ⟨hi.once, List.nodup_singleton _, ?_⟩
      intro offer hmem other hother heq
      rw [List.mem_singleton.mp hother] at heq
      rw [heq] at hmem
      exact absurd (hi.fresh _ hmem) (lt_irrefl _)
    · intro offer hmem
      rw [htracked] at hmem
      rw [hmore]
      rcases List.mem_cons.mp hmem with rfl | hmem
      · simp
      · exact List.mem_append_left _ (hi.mapped offer hmem)

theorem run_sound {lib : ImageLibrary} {ok : Device → Action → Prop} {h : List Obs}
    {d : Device} (hrun : (machine lib).Run ok {} h d) : Sound h d :=
  hrun.history_invariant Sound sound_initial
    (fun _ _ _ _ _ hi _ hstep => step_sound hi (step_cases hstep))

/-- The offers are looked after: the map holds only offers that are alive,
nothing is destroyed twice, and after the teardown everything has been
destroyed. -/
structure Lifecycle (h : List Obs) (d : Device) : Prop where
  mapAlive : ∀ offer ∈ tracked d, offer ∈ introduced h ∧ offer ∉ destroyed h
  notTwice : ∀ offer, (destroyed h).count offer ≤ 1
  complete : d.manager.state.stop = true →
    ∀ offer ∈ introduced h, (destroyed h).count offer = 1

theorem count_left (h : List Obs) (offer : OfferProxy) :
    (offers.left h).count offer = (destroyed h).count offer := by
  rw [left_eq_destroyed, Multiset.coe_count]

/-- Destroyed or tracked, each time that it came in. -/
theorem Sound.count_balanced {h : List Obs} {d : Device} (hi : Sound h d) (offer : OfferProxy) :
    (destroyed h).count offer + (tracked d).count offer = (offers.entered h).count offer := by
  have hheld : (offers.held d).count offer = (tracked d).count offer := Multiset.coe_count _ _
  rw [← hi.balanced, Multiset.count_add, count_left, hheld]

/-- **Every offer is destroyed exactly once**, and the map holds only offers
that are alive, after every run in which no primary selection names an offer,
and after no other. -/
theorem offers_destroyed_once_iff (lib : ImageLibrary) :
    ∀ h d, (machine lib).Run Machine.always {} h d →
      (Lifecycle h d ↔ ∀ offer, .primary offer ∉ h) := by
  intro h d hrun
  have hi := run_sound hrun
  constructor
  · intro hlife offer hmem
    have hlt := count_introduced_lt hmem
    have hone := List.count_eq_one_of_mem hi.once (hi.primary offer hmem)
    have hbalance := hi.count_balanced offer
    have htwice := hlife.notTwice offer
    have hmap := List.nodup_iff_count_le_one.mp hi.tracking.nodup offer
    by_cases htracked : offer ∈ tracked d
    · have hnone : (destroyed h).count offer = 0 :=
        List.count_eq_zero.mpr (hlife.mapAlive offer htracked).2
      omega
    · have hnone : (tracked d).count offer = 0 := List.count_eq_zero.mpr htracked
      omega
  · intro hnone
    have hentered := entered_eq_introduced hnone
    have honce : (offers.entered h).Nodup := by
      rw [hentered]
      exact Multiset.coe_nodup.mpr hi.once
    refine ⟨?_, ?_, ?_⟩
    · intro offer hmem
      refine ⟨hi.mapped offer hmem, ?_⟩
      rw [← List.count_eq_zero]
      have hbalance := hi.count_balanced offer
      have hle := Multiset.nodup_iff_count_le_one.mp honce offer
      have hpos : 0 < (tracked d).count offer := List.count_pos_iff.mpr hmem
      omega
    · intro offer
      rw [← count_left]
      exact hi.balanced.count_le_one honce
    · intro hstop offer hmem
      have hempty : offer ∉ offers.held d := by
        have hheld : offers.held d = (tracked d : Multiset OfferProxy) := rfl
        rw [hheld, hi.empty hstop]
        exact Multiset.notMem_zero offer
      rw [← count_left]
      refine hi.balanced.count_eq_one honce ?_ hempty
      rw [hentered]
      exact hmem

/-- A copy of text, a picture that is replaced before it is selected, and the
end. -/
def copyReplaceClose : List Action :=
  [.dataOffer (some 0), .offerMime 0 (ascii "text/plain"), .selection (some 0) false true [],
    .dataOffer (some 1), .offerMime 1 (ascii "image/png"), .dataOffer (some 2),
    .primarySelection none, .selection (some 2) false true [], .dataOffer (some 3),
    .manager .destroy]

theorem offers_destroyed_once_iff_closed :
    ∃ h d, (machine WaylandClipboard.noImages).Run Machine.always {} h d ∧
      introduced h = [0, 1, 2, 3] ∧ destroyed h = [0, 1, 2, 3] ∧ Lifecycle h d := by
  have hexec : ((machine WaylandClipboard.noImages).exec {} copyReplaceClose).map
      (fun r => r.2) =
      some [.introduced 0, .destroyed 0, .spawned 0 [], .introduced 1, .introduced 2, .destroyed 1,
        .destroyed 2, .introduced 3, .destroyed 3] := by
    decide
  obtain ⟨h, d, hrun, rfl⟩ := Machine.Run.of_exec_map hexec
  exact ⟨_, d, hrun, rfl, rfl,
    (offers_destroyed_once_iff WaylandClipboard.noImages _ d hrun).mpr (by simp)⟩

/-- **A primary selection destroys twice**: text is selected with the mouse,
and the helper is closed. -/
theorem primary_selection_destroys_twice :
    ∃ h d, (machine WaylandClipboard.noImages).Run Machine.always {} h d ∧
      introduced h = [0] ∧ destroyed h = [0, 0] ∧ ¬ Lifecycle h d := by
  have hexec : ((machine WaylandClipboard.noImages).exec {}
      [.dataOffer (some 0), .primarySelection (some 0), .manager .destroy]).map (fun r => r.2) =
      some [.introduced 0, .primary 0, .destroyed 0, .destroyed 0] := by
    decide
  obtain ⟨h, d, hrun, rfl⟩ := Machine.Run.of_exec_map hexec
  refine ⟨_, d, hrun, rfl, rfl, ?_⟩
  intro hlife
  exact absurd (hlife.notTwice 0) (by decide)

end WaylandOffers
