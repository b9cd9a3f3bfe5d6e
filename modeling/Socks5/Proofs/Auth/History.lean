import Mathlib.Data.List.Induction
import Mathlib.Data.List.Sort
import Socks5.Client.Basic
import Socks5.Proofs.Auth.Selection
import Socks5.Proofs.Session.Gate
import Socks5.Proofs.Session.Messages

/-!
# Registering one method after the other

What a registry comes to after any number of registrations. The methods are kept in the order of
their ids, so that a registry is no more than what it has for each id; and for each id it has what
was registered for it last. The id that says that no method is acceptable may be registered and
offered like any other, and never gets on offer. Main statement: which method is picked for an
offer, what a session tells its client about it, and what a client offers (`picksLatest`).
-/

namespace Socks5.MethodRegistry

variable {m m' : Method} {methods others : List Method} {offered : List MethodId} {id : MethodId}

/-! ## Histories -/

/-- The method that was registered for an id last. -/
def latest (methods : List Method) (id : MethodId) : Option Method :=
  (methods.filter (·.id = id)).getLast?

/-- An id for which a method was registered that can be chosen. -/
def Registered (methods : List Method) (id : MethodId) : Prop :=
  id ≠ .noAcceptable ∧ ∃ m ∈ methods, m.id = id

/-- What is to be chosen from an offer: the first id in it that is registered, or none. -/
inductive Favours (methods : List Method) : List MethodId → MethodId → Prop where
  | first {front back : List MethodId} {id : MethodId}
      (passed : ∀ k ∈ front, ¬ Registered methods k) (registered : Registered methods id) :
      Favours methods (front ++ id :: back) id
  | none {offered : List MethodId} (passed : ∀ k ∈ offered, ¬ Registered methods k) :
      Favours methods offered .noAcceptable

theorem ofList_append (methods : List Method) (m : Method) :
    ofList (methods ++ [m]) = (ofList methods).register m := by
  rw [ofList, List.foldl_append]
  rfl

theorem latest_append (methods : List Method) (m : Method) (id : MethodId) :
    latest (methods ++ [m]) id = if m.id = id then some m else latest methods id := by
  unfold latest
  by_cases h : m.id = id
  · rw [if_pos h, List.filter_append, List.filter_singleton]
    simp [h]
  · rw [if_neg h, List.filter_append, List.filter_singleton]
    simp [h]

theorem latest_isSome_iff : (latest methods id).isSome ↔ ∃ m ∈ methods, m.id = id := by
  rw [latest, List.getLast?_isSome, ne_eq, List.filter_eq_nil_iff]
  simp

/-- For each id a registry has what was registered for it last. -/
theorem get?_ofList (methods : List Method) (id : MethodId) :
    (ofList methods).get? id = if id = .noAcceptable then none else latest methods id := by
  induction methods using List.reverseRecOn with
  | nil => cases id with | _ => simp [ofList, empty, get?, latest]
  | append_singleton methods m ih =>
    rw [ofList_append, latest_append]
    by_cases hm : m.id = .noAcceptable
    · rw [register_noAcceptable hm]
      refine Eq.trans (b := (ofList methods).get? id) rfl (ih.trans ?_)
      by_cases hid : id = .noAcceptable
      · rw [if_pos hid, if_pos hid]
      · rw [if_neg hid, if_neg hid, if_neg fun h : m.id = id => hid (h ▸ hm)]
    · rw [get?_register hm, ih]
      by_cases hid : id = .noAcceptable
      · rw [if_pos hid, if_pos hid, if_neg fun h : m.id = id => hm (h.trans hid)]
      · rw [if_neg hid, if_neg hid]

/-- For the case that no method is acceptable it has what was registered for that last. -/
theorem fallback_ofList_eq (methods : List Method) :
    (ofList methods).fallback = (latest methods .noAcceptable).getD .noAcceptable := by
  induction methods using List.reverseRecOn with
  | nil => rfl
  | append_singleton methods m ih =>
    rw [ofList_append, latest_append]
    by_cases hm : m.id = .noAcceptable
    · rw [register_noAcceptable hm, if_pos hm]
      rfl
    · rw [fallback_register hm, ih, if_neg hm]

theorem contains_ofList_iff : (ofList methods).contains id ↔ Registered methods id := by
  rw [contains, get?_ofList]
  by_cases hid : id = .noAcceptable
  · rw [if_pos hid]
    exact ⟨fun h => absurd h Bool.false_ne_true, fun h => absurd hid h.1⟩
  · rw [if_neg hid, latest_isSome_iff]
    exact ⟨fun h => ⟨hid, h⟩, fun h => h.2⟩

/-- What is run for an id that is registered is what was registered for it last. -/
theorem resolve_ofList (h : Registered methods id) :
    latest methods id = some ((ofList methods).resolve id) := by
  have hsome : (latest methods id).isSome := latest_isSome_iff.2 h.2
  rw [resolve, get?_ofList, if_neg h.1]
  exact (Option.some_get hsome).symm.trans (congrArg some (Option.get_eq_getD _))

theorem resolve_ofList_noAcceptable (methods : List Method) :
    (ofList methods).resolve .noAcceptable =
      (latest methods .noAcceptable).getD .noAcceptable := by
  rw [resolve, get?_ofList, if_pos rfl, Option.getD_none, fallback_ofList_eq]

theorem id_of_latest (h : latest methods id = some m) : m.id = id := by
  have hmem := List.mem_filter.1 (List.mem_of_getLast? h)
  exact of_decide_eq_true hmem.2

/-- What is chosen from an offer is what is to be chosen. -/
theorem favours_select (methods : List Method) (offered : List MethodId) :
    Favours methods offered ((ofList methods).select offered) := by
  have hcontains : ∀ k, ¬ (ofList methods).contains k → ¬ Registered methods k := fun k hk h =>
    hk (contains_ofList_iff.2 h)
  cases hfind : offered.find? (ofList methods).contains with
  | none =>
    rw [select, hfind, Option.getD_none]
    exact .none fun k hk => hcontains k (List.find?_eq_none.1 hfind k hk)
  | some id =>
    rw [select, hfind, Option.getD_some]
    obtain ⟨hid, front, back, rfl, hfront⟩ := List.find?_eq_some_iff_append.1 hfind
    exact .first (fun k hk => hcontains k (by simpa using hfront k hk))
      (contains_ofList_iff.1 hid)

/-- What is registered for the case that none is acceptable is passed over, also when it is offered
first. -/
example : (ofList [.noAcceptable, .noAuth]).select [.noAcceptable, .noAuth] = .noAuth := rfl

theorem select_ofList_eq_noAcceptable_iff :
    (ofList methods).select offered = .noAcceptable ↔ ∀ k ∈ offered, ¬ Registered methods k := by
  constructor
  · intro h
    have hfavours := favours_select methods offered
    rw [h] at hfavours
    generalize hnone : MethodId.noAcceptable = chosen at hfavours
    cases hfavours with
    | first _ registered => exact absurd hnone.symm registered.1
    | none passed => exact passed
  · intro h
    have hfavours := favours_select methods offered
    generalize (ofList methods).select offered = chosen at hfavours
    cases hfavours with
    | first _ registered => exact absurd registered (h _ (by simp))
    | none _ => rfl

/-- What is run for what was chosen is a method for just that. -/
theorem id_resolve_select (methods : List Method) (offered : List MethodId) :
    ((ofList methods).resolve ((ofList methods).select offered)).id =
      (ofList methods).select offered := by
  generalize hid : (ofList methods).select offered = id
  have hfavours := favours_select methods offered
  rw [hid] at hfavours
  cases hfavours with
  | first _ registered => exact id_of_latest (resolve_ofList registered)
  | none _ =>
    rw [resolve_ofList_noAcceptable]
    cases hlatest : latest methods .noAcceptable with
    | none => rfl
    | some m => exact id_of_latest hlatest

/-! ## The order of the ids -/

/-- One method has a lower id than another. -/
def Below (m m' : Method) : Prop := m.id < m'.id

instance : Std.Irrefl Below := ⟨fun m => UInt8.lt_irrefl m.id⟩

instance : Std.Antisymm Below :=
  ⟨fun m _ h h' => absurd (UInt8.lt_trans h h') (UInt8.lt_irrefl m.id)⟩

theorem pairwise_insert (h : methods.Pairwise Below) : (insert m methods).Pairwise Below := by
  induction methods with
  | nil => exact List.pairwise_singleton _ _
  | cons k rest ih =>
    obtain ⟨hk, hrest⟩ := List.pairwise_cons.1 h
    rw [insert]
    by_cases hlt : m.id < k.id
    · rw [if_pos hlt]
      refine List.pairwise_cons.2 ⟨fun m' hm' => ?_, h⟩
      rcases List.mem_cons.1 hm' with rfl | hm'
      · exact hlt
      · exact UInt8.lt_trans hlt (hk m' hm')
    · rw [if_neg hlt]
      by_cases heq : m.id = k.id
      · rw [if_pos heq]
        refine List.pairwise_cons.2 ⟨fun m' hm' => ?_, hrest⟩
        exact (congrArg (· < m'.id) heq).mpr (hk m' hm')
      · rw [if_neg heq]
        refine List.pairwise_cons.2 ⟨fun m' hm' => ?_, ih hrest⟩
        rcases mem_of_mem_insert hm' with rfl | hm'
        · exact UInt8.lt_of_le_of_ne (UInt8.not_lt.1 hlt) (Ne.symm heq)
        · exact hk m' hm'

/-- However methods were registered, they are in the order of their ids. -/
theorem pairwise_ofList (methods : List Method) : (ofList methods).methods.Pairwise Below := by
  induction methods using List.reverseRecOn with
  | nil => exact .nil
  | append_singleton methods m ih =>
    rw [ofList_append, register]
    by_cases hm : m.id = .noAcceptable
    · rw [if_pos hm]
      exact ih
    · rw [if_neg hm]
      exact pairwise_insert ih

/-- The ids that have a method are in ascending order. -/
theorem pairwise_supported (methods : List Method) :
    (ofList methods).supported.Pairwise (· < ·) := List.pairwise_map.2 (pairwise_ofList methods)

theorem nodup_supported (methods : List Method) : (ofList methods).supported.Nodup :=
  (pairwise_supported methods).imp UInt8.ne_of_lt

theorem mem_supported_iff : id ∈ (ofList methods).supported ↔ Registered methods id :=
  contains_iff.symm.trans contains_ofList_iff

/-- There are not so many of them that an offer could not be written. -/
theorem length_supported_le (methods : List Method) :
    (ofList methods).supported.length ≤ 255 := by
  have hnodup : ((ofList methods).supported.map UInt8.toNat).Nodup :=
    (nodup_supported methods).map fun _ _ => UInt8.toNat_inj.1
  have hsubset : (ofList methods).supported.map UInt8.toNat ⊆ List.range 255 := by
    intro n hn
    obtain ⟨id, hid, rfl⟩ := List.mem_map.1 hn
    have hacceptable : id.toNat ≠ 255 := fun h =>
      (mem_supported_iff.1 hid).1 (UInt8.toNat_inj.1 h)
    have hbound := id.toNat_lt
    exact List.mem_range.2 (by omega)
  have hlength := (List.subperm_of_subset hnodup hsubset).length_le
  rwa [List.length_map, List.length_range] at hlength

/-- The methods in a registry are those that it has for their ids. -/
theorem mem_methods_iff (methods : List Method) :
    m ∈ (ofList methods).methods ↔ (ofList methods).get? m.id = some m := by
  constructor
  · intro hm
    obtain ⟨m', hm'⟩ : ∃ m', (ofList methods).get? m.id = some m' :=
      Option.isSome_iff_exists.1 (contains_iff.2 (List.mem_map_of_mem hm))
    have hid : m'.id = m.id := by simpa using List.find?_some hm'
    rw [hm', List.inj_on_of_nodup_map (nodup_supported methods) (List.mem_of_find?_eq_some hm')
      hm hid]
  · exact List.mem_of_find?_eq_some

/-- A registry is what was registered last for each id. -/
theorem ofList_eq_of_latest (h : ∀ id, latest others id = latest methods id) :
    ofList others = ofList methods := by
  have hmethods : (ofList others).methods = (ofList methods).methods := by
    refine (pairwise_ofList others).eq_of_mem_iff (pairwise_ofList methods) fun m => ?_
    rw [mem_methods_iff, mem_methods_iff, get?_ofList, get?_ofList, h]
  have hfallback : (ofList others).fallback = (ofList methods).fallback := by
    rw [fallback_ofList_eq, fallback_ofList_eq, h]
  exact congrArg₂ MethodRegistry.mk hmethods hfallback

end Socks5.MethodRegistry

namespace Socks5.Serving

open Socks5.Task (Leads)
open Hosting (told heard)
open MethodRegistry (ofList latest Registered Favours)

/-! ## What the client is told -/

/-- A session from its beginning beyond the point where a method goes to work: the client has made
an offer, it was told the id of the method that is picked for that, and nothing else, and this
method's side of the server takes over. -/
def Announced (s : Setting) (d : Dialogue Hostings) (t : Task Hostings Unit) : Prop :=
  ∃ offered count m d₁ d₂, d = d₁ ++ ⟨.enter .authenticating, ()⟩ :: d₂ ∧
    heard d₁ = version :: count :: offered ∧ count.toNat = offered.length ∧
    m = s.methods.resolve (s.methods.select offered) ∧ told d₁ = [version, m.id] ∧
    Leads (((onChannel m.server).bind fun verdict =>
      (welcome verdict).bind fun _ => obey s).attempt.bind finish) d₂ t

variable {s : Setting} {d : Dialogue Hostings} {t : Task Hostings Unit} {offer : MethodOffer}

/-- While a method is chosen, an offer is heard, and the id that is chosen is told. -/
theorem told_of_leads_choose (h : Leads (choose s.methods) d (.done offer)) :
    (∃ count : UInt8, count.toNat = offer.methods.length ∧
        heard d = version :: count :: offer.methods) ∧
      told d = [version, s.methods.select offer.methods] := by
  obtain ⟨dr, dw, rfl, hr, hw⟩ := leads_choose_done_iff.1 h
  have hread := leads_receive hr
  have hsaid := leads_deliver rfl hw
  obtain ⟨count, hcount, hbytes⟩ := MethodOffer.parse_ok_iff.1 (hread.value offer rfl)
  -- the state that is entered and the note in between are no words to the client
  constructor
  · have hheard : heard (⟨.enter .negotiating, ()⟩ :: dr) = heard dr := rfl
    have hrest : ∀ n, heard (⟨.note n, ()⟩ :: dw) = heard dw := fun _ => rfl
    refine ⟨count, hcount, ?_⟩
    rw [Hosting.heard_append, hheard, hrest, hbytes, Hosting.heard_of_isDeaf hsaid.deaf,
      List.append_nil, List.append_nil]
  · have htold : told (⟨.enter .negotiating, ()⟩ :: dr) = told dr := rfl
    have hrest : ∀ n, told (⟨.note n, ()⟩ :: dw) = told dw := fun _ => rfl
    rw [Hosting.told_append, htold, hrest, Hosting.told_of_isMute hread.mute, List.nil_append,
      (hsaid.whole rfl).1]

/-- A method goes to work only where the client was told its id. -/
theorem announced_of_leads (hid : ∀ offered, (s.methods.resolve (s.methods.select offered)).id =
      s.methods.select offered) (h : Leads (run s) d t)
    (hworks : ⟨.enter .authenticating, ()⟩ ∈ d) : Announced s d t := by
  cases leads_run h with
  | start => cases hworks
  | vetoed ends =>
    rcases List.mem_cons.1 hworks with hworks | hworks
    · cases hworks
    · exact absurd rfl (awayFromGate_of_ofEnding ((asksOnly_finish _).of_mem ends _ hworks)).1
  | choosing chooses =>
    rcases List.mem_cons.1 hworks with hworks | hworks
    · cases hworks
    · exact absurd rfl
        (awayFromGate_of_ofChoice ((asksOnly_choose _).of_mem chooses _ hworks)).1
  | unchosen chooses ends =>
    rcases List.mem_cons.1 hworks with hworks | hworks
    · cases hworks
    rcases List.mem_append.1 hworks with hworks | hworks
    · exact absurd rfl
        (awayFromGate_of_ofChoice ((asksOnly_choose _).of_mem chooses _ hworks)).1
    · exact absurd rfl (awayFromGate_of_ofEnding ((asksOnly_finish _).of_mem ends _ hworks)).1
  | @chosen offer d₁ d₂ _ chooses goesOn =>
    rcases Task.leads_ask_iff.1 goesOn with ⟨rfl, rfl⟩ | ⟨_, d₃, rfl, hserver⟩
    · rw [List.append_nil] at hworks
      rcases List.mem_cons.1 hworks with hworks | hworks
      · cases hworks
      · exact absurd rfl
          (awayFromGate_of_ofChoice ((asksOnly_choose _).of_mem chooses _ hworks)).1
    · obtain ⟨⟨count, hcount, hheard⟩, htold⟩ := told_of_leads_choose chooses
      refine ⟨offer.methods, count, _, ⟨.vetSession, none⟩ :: d₁, d₃, rfl, hheard, hcount, rfl, ?_,
        hserver⟩
      rw [hid]
      exact htold

/-! ## Everything that was registered -/

/-- What registering methods one after the other comes to. -/
structure PicksLatest (methods : List Method) : Prop where
  /-- The first id of an offer that is registered is chosen, or none is acceptable. -/
  favours : ∀ offered, Favours methods offered ((ofList methods).select offered)
  /-- That none is acceptable is the choice exactly if no id of the offer is registered. -/
  refuses : ∀ offered, (ofList methods).select offered = .noAcceptable ↔
    ∀ id ∈ offered, ¬ Registered methods id
  /-- What is run for an id that is registered was registered for it last. -/
  runs : ∀ id, Registered methods id →
    latest methods id = some ((ofList methods).resolve id)
  /-- Where no method is acceptable, what was registered last for that case is run, or else what
  is there from the beginning. -/
  givesUp : (ofList methods).resolve .noAcceptable =
    (latest methods .noAcceptable).getD .noAcceptable
  /-- The method that is run has the id that was chosen. -/
  own : ∀ offered, ((ofList methods).resolve ((ofList methods).select offered)).id =
    (ofList methods).select offered
  /-- A session runs the method whose id it has told its client. -/
  announced : ∀ config peer localAddr d t,
    Leads (run ⟨ofList methods, config, peer, localAddr⟩) d t →
    ⟨.enter .authenticating, ()⟩ ∈ d → Announced ⟨ofList methods, config, peer, localAddr⟩ d t
  /-- In which order methods with different ids were registered makes no difference. -/
  reordered : ∀ others : List Method,
    (∀ id, others.filter (·.id = id) = methods.filter (·.id = id)) → ofList others = ofList methods
  /-- The ids that are listed are those that are registered, in ascending order. -/
  lists : (ofList methods).supported.Pairwise (· < ·) ∧ .noAcceptable ∉ (ofList methods).supported ∧
    ∀ id, id ∈ (ofList methods).supported ↔ Registered methods id
  /-- A client that can run the methods can write its offer of them. -/
  offers : ∀ proxy resolvesLocally,
    (Client.mk proxy (ofList methods) resolvesLocally).offer.encode =
      .ok (version :: UInt8.ofNat (ofList methods).supported.length ::
        (ofList methods).supported.reverse)

/-- Whatever methods are registered one after the other, with whatever ids, an offer is met with
the first id in it that is registered, the method that was registered for this id last is run, and
all that can be chosen can be offered. -/
theorem picksLatest (methods : List Method) : PicksLatest methods where
  favours := MethodRegistry.favours_select methods
  refuses _ := MethodRegistry.select_ofList_eq_noAcceptable_iff
  runs _ := MethodRegistry.resolve_ofList
  givesUp := MethodRegistry.resolve_ofList_noAcceptable methods
  own := MethodRegistry.id_resolve_select methods
  announced _ _ _ _ _ := announced_of_leads (MethodRegistry.id_resolve_select methods)
  reordered others h := by
    refine MethodRegistry.ofList_eq_of_latest fun id => ?_
    rw [latest, latest, h]
  lists := ⟨MethodRegistry.pairwise_supported methods,
    fun h => (MethodRegistry.mem_supported_iff.1 h).1 rfl,
    fun _ => MethodRegistry.mem_supported_iff⟩
  offers proxy resolvesLocally := by
    have hlength : ¬ 255 < (ofList methods).supported.reverse.length := by
      rw [List.length_reverse]
      exact Nat.not_lt.2 (MethodRegistry.length_supported_le methods)
    rw [Client.offer, MethodOffer.encode, if_neg hlength, List.length_reverse]

end Socks5.Serving
