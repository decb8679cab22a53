import Mathlib.Data.Finset.Card
import RustLibp2p.GossipsubCodec

/-! Filters of incoming subscriptions. The entries of a request are brought to at most one for each
topic, of which the filter keeps those it allows. Filters can be nested, and the parts of a nested filter
override different methods. -/

namespace RustLibp2p.Gossipsub

/-- The entries so far with one more: it is dropped behind an equal one, and an opposite one is taken back. -/
def collect (filtered : List Subscription) (subscription : Subscription) : List Subscription :=
  match filtered.find? (·.topicHash = subscription.topicHash) with
  | some entry =>
    if entry.action ≠ subscription.action then filtered.filter (·.topicHash ≠ subscription.topicHash) else filtered
  | none => filtered ++ [subscription]

def deduplicate (subscriptions : List Subscription) : List Subscription := subscriptions.foldl collect []

def applyTo (topics : Finset TopicHash) (subscription : Subscription) : Finset TopicHash :=
  match subscription.action with
  | .subscribe => insert subscription.topicHash topics
  | .unsubscribe => topics.erase subscription.topicHash

def applyAll (topics : Finset TopicHash) (subscriptions : List Subscription) : Finset TopicHash :=
  subscriptions.foldl applyTo topics

/-- A leaf is any filter that only tells which topics are of interest. It is asked once for each entry of a request
at the most, so that its answers are a function even where they come from a callback. -/
inductive Filter where
  | leaf (can : TopicHash → Bool)
  | maxCount (filter : Filter) (maxSubscribedTopics maxSubscriptionsPerRequest : Nat)
  | combined (filter1 filter2 : Filter)

namespace Filter

def canSubscribe : Filter → TopicHash → Bool
  | leaf can, topic => can topic
  | maxCount filter _ _, topic => filter.canSubscribe topic
  | combined filter1 filter2, topic => filter1.canSubscribe topic && filter2.canSubscribe topic

def allowIncomingSubscription (filter : Filter) (subscription : Subscription) : Bool :=
  filter.canSubscribe subscription.topicHash

/-- Only combined filters have a method of their own for sets. None refuses a set. -/
def filterIncomingSubscriptionSet : Filter → List Subscription → List Subscription
  | combined filter1 filter2, entries =>
    filter2.filterIncomingSubscriptionSet (filter1.filterIncomingSubscriptionSet entries)
  | filter, entries => entries.filter filter.allowIncomingSubscription

section

variable (current : Finset TopicHash)

def unsubscribed (result : List Subscription) : Nat :=
  result.countP fun entry => entry.action = .unsubscribe ∧ entry.topicHash ∈ current

def newSubscribed (result : List Subscription) : Nat :=
  result.countP fun entry => entry.action = .subscribe ∧ entry.topicHash ∉ current

/-- Only a filter with maxima has a method of its own for lists. -/
def filterIncomingSubscriptions (subscriptions : List Subscription) : Filter → Except String (List Subscription)
  | maxCount filter maxSubscribedTopics maxSubscriptionsPerRequest =>
    if subscriptions.length > maxSubscriptionsPerRequest then .error "too many subscriptions per request"
    else do
      let result ← filter.filterIncomingSubscriptions subscriptions
      if newSubscribed current result + current.card > maxSubscribedTopics + unsubscribed current result then
        .error "too many subscribed topics"
      else .ok result
  | filter => .ok (filter.filterIncomingSubscriptionSet (deduplicate subscriptions))

/-- The topics of a peer behind a request; one that is refused changes nothing. -/
def handleReceivedSubscriptions (filter : Filter) (subscriptions : List Subscription) : Finset TopicHash :=
  match filter.filterIncomingSubscriptions current subscriptions with
  | .error _ => current
  | .ok result => applyAll current result

end
end Filter

/-! ### One entry for each topic -/

/-- The actions that a request has for one topic, in order. -/
def actionsFor (topic : TopicHash) (subscriptions : List Subscription) : List SubscriptionAction :=
  (subscriptions.filter (·.topicHash = topic)).map (·.action)

/-- An action takes back an opposite one that is waiting. -/
def meet : Option SubscriptionAction → SubscriptionAction → Option SubscriptionAction
  | none, action => some action
  | some other, action => if other = action then some other else none

/-- What is left of the actions for a topic. -/
def pending (actions : List SubscriptionAction) : Option SubscriptionAction := actions.foldl meet none

variable {topic : TopicHash} {subscription : Subscription} {filtered result : List Subscription}

theorem getLast?_of_pending {acts : List SubscriptionAction} {action : SubscriptionAction}
    (hp : pending acts = some action) : acts.getLast? = some action := by
  induction acts using List.reverseRecOn with
  | nil => simp [pending] at hp
  | append_singleton acts =>
    simp only [pending, List.foldl_append, List.foldl_cons, List.foldl_nil] at hp
    cases hw : acts.foldl meet none with
    | none => simpa [hw, meet] using hp
    | some =>
      rw [hw, meet] at hp
      split_ifs at hp with heq
      simpa [← heq] using hp

theorem actionsFor_collect_of_ne (hne : subscription.topicHash ≠ topic) :
    actionsFor topic (collect filtered subscription) = actionsFor topic filtered := by
  unfold collect
  split
  · split_ifs
    · simp only [actionsFor, List.filter_filter]
      congr 1
      refine List.filter_congr fun e _ => ?_
      by_cases heq : e.topicHash = topic <;> simp [heq, hne.symm]
    · rfl
  · simp [actionsFor, hne]

theorem actionsFor_collect {waiting : Option SubscriptionAction}
    (hw : actionsFor subscription.topicHash filtered = waiting.toList) :
    actionsFor subscription.topicHash (collect filtered subscription) = (meet waiting subscription.action).toList := by
  unfold collect
  rw [← List.head?_filter]
  cases waiting with
  | none =>
    have hn : filtered.filter (·.topicHash = subscription.topicHash) = [] := by simpa [actionsFor] using hw
    simp [hn, actionsFor, meet]
  | some other =>
    obtain ⟨e, he, rfl⟩ : ∃ e, filtered.filter (·.topicHash = subscription.topicHash) = [e] ∧
        e.action = other := by simpa [actionsFor, List.map_eq_singleton_iff] using hw
    by_cases heq : e.action = subscription.action <;> simp [he, heq, actionsFor, meet]

/-- At most one entry is left for a topic, the one that is not taken back. -/
theorem actionsFor_deduplicate (topic : TopicHash) (subscriptions : List Subscription) :
    actionsFor topic (deduplicate subscriptions) = (pending (actionsFor topic subscriptions)).toList := by
  induction subscriptions using List.reverseRecOn with
  | nil => rfl
  | append_singleton subscriptions last ih =>
    rw [deduplicate, List.foldl_append, List.foldl_cons, List.foldl_nil, ← deduplicate]
    by_cases heq : last.topicHash = topic
    · subst heq
      rw [actionsFor_collect ih]
      simp [actionsFor, pending]
    · rw [actionsFor_collect_of_ne heq, ih]
      simp [actionsFor, heq]

theorem mem_applyTo_of_ne {topics : Finset TopicHash} (hne : topic ≠ subscription.topicHash) :
    topic ∈ applyTo topics subscription ↔ topic ∈ topics := by
  unfold applyTo
  split <;> simp [hne]

/-- The last entry for a topic decides. -/
theorem mem_applyAll (topics : Finset TopicHash) (subscriptions : List Subscription) :
    topic ∈ applyAll topics subscriptions ↔
      match (actionsFor topic subscriptions).getLast? with
      | none => topic ∈ topics
      | some act => act = .subscribe := by
  induction subscriptions using List.reverseRecOn with
  | nil => simp [applyAll, actionsFor]
  | append_singleton subscriptions last ih =>
    rw [applyAll, List.foldl_append, List.foldl_cons, List.foldl_nil, ← applyAll]
    by_cases heq : last.topicHash = topic
    · cases ha : last.action <;> simp [actionsFor, applyTo, heq, ha]
    · rw [mem_applyTo_of_ne (Ne.symm heq), ih]
      simp [actionsFor, heq]

namespace Filter

/-- A request and what is left of it have the same effect on a peer if and only if, for every topic whose entries are
all taken back, the last of them asks for what holds already. -/
theorem handleReceivedSubscriptions_eq_iff (current : Finset TopicHash) (subscriptions : List Subscription) :
    handleReceivedSubscriptions current (leaf fun _ => true) subscriptions = applyAll current subscriptions ↔
      ∀ topic action, pending (actionsFor topic subscriptions) = none →
        (actionsFor topic subscriptions).getLast? = some action → (topic ∈ current ↔ action = .subscribe) := by
  have hk : handleReceivedSubscriptions current (leaf fun _ => true) subscriptions =
      applyAll current (deduplicate subscriptions) :=
    congrArg (applyAll current) (List.filter_eq_self.2 fun _ _ => rfl)
  rw [hk, Finset.ext_iff]
  refine forall_congr' fun topic => ?_
  rw [mem_applyAll, mem_applyAll, actionsFor_deduplicate]
  cases hp : pending (actionsFor topic subscriptions) with
  | some => simp [getLast?_of_pending hp]
  | none => cases (actionsFor topic subscriptions).getLast? <;> simp

def entryFor (action : SubscriptionAction) : Subscription := ⟨action, ⟨"blocks"⟩, ⟨false, false⟩⟩

/-- The peer is subscribed, and subscribes once more before it unsubscribes: it stays subscribed. -/
theorem unsubscription_lost :
    handleReceivedSubscriptions {⟨"blocks"⟩} (leaf fun _ => true) [entryFor .subscribe, entryFor .unsubscribe] =
        {⟨"blocks"⟩} ∧
      applyAll {⟨"blocks"⟩} [entryFor .subscribe, entryFor .unsubscribe] = ∅ := by
  decide

/-- The maxima within a filter: topics of a peer, and entries of a request. -/
def limits : Filter → List (Nat × Nat)
  | leaf _ => []
  | maxCount filter topics perRequest => (topics, perRequest) :: filter.limits
  | combined filter1 filter2 => filter1.limits ++ filter2.limits

/-- The maxima that stand within a combined filter, which asks its parts about sets only. -/
def bypassed : Filter → List (Nat × Nat)
  | leaf _ => []
  | maxCount filter _ _ => filter.bypassed
  | combined filter1 filter2 => filter1.limits ++ filter2.limits

/-- The request and the topics of the peer behind it are within a maximum. -/
def Respects (subscriptions : List Subscription) (current : Finset TopicHash) (result : List Subscription)
    (limit : Nat × Nat) : Prop :=
  (applyAll current result).card ≤ limit.1 ∧ subscriptions.length ≤ limit.2

theorem bypassed_subset (filter : Filter) : filter.bypassed ⊆ filter.limits := by
  induction filter with
  | leaf => exact .refl _
  | maxCount filter topics perRequest ih => exact List.subset_cons_of_subset _ ih
  | combined => exact .refl _

theorem set_sublist (filter : Filter) (entries : List Subscription) :
    (filter.filterIncomingSubscriptionSet entries).Sublist entries := by
  induction filter generalizing entries with
  | leaf => exact List.filter_sublist
  | maxCount => exact List.filter_sublist
  | combined filter1 filter2 ih1 ih2 => exact (ih2 _).trans (ih1 _)

theorem nodup_deduplicate (subscriptions : List Subscription) :
    ((deduplicate subscriptions).map (·.topicHash)).Nodup := by
  refine List.nodup_iff_count_le_one.2 fun topic => ?_
  have hc : ((deduplicate subscriptions).map (·.topicHash)).count topic =
      (actionsFor topic (deduplicate subscriptions)).length := by
    rw [List.count, List.countP_map, List.countP_eq_length_filter, actionsFor, List.length_map]
    rfl
  rw [hc, actionsFor_deduplicate]
  cases pending (actionsFor topic subscriptions) <;> simp

/-- With an entry for each of some topics, those that come and go are counted rightly. -/
theorem card_applyAll (current : Finset TopicHash) (hd : (result.map (·.topicHash)).Nodup) :
    (applyAll current result).card + unsubscribed current result = newSubscribed current result + current.card := by
  induction result generalizing current with
  | nil => simp [applyAll, unsubscribed, newSubscribed]
  | cons e rest ih =>
    rw [List.map_cons, List.nodup_cons] at hd
    have hs : ∀ other ∈ rest, (other.topicHash ∈ applyTo current e ↔ other.topicHash ∈ current) :=
      fun other hmem => mem_applyTo_of_ne fun heq => hd.1 (heq ▸ List.mem_map_of_mem hmem)
    have hg : unsubscribed (applyTo current e) rest = unsubscribed current rest :=
      List.countP_congr fun other hmem => by simp [hs other hmem]
    have hn : newSubscribed (applyTo current e) rest = newSubscribed current rest :=
      List.countP_congr fun other hmem => by simp [hs other hmem]
    have hr := ih (applyTo current e) hd.2
    rw [hg, hn] at hr
    change (applyAll (applyTo current e) rest).card + _ = _
    unfold unsubscribed newSubscribed at *
    rw [List.countP_cons, List.countP_cons]
    by_cases hmem : e.topicHash ∈ current <;> cases ha : e.action <;> simp [applyTo, ha, hmem] at hr ⊢
    · omega
    · have := Finset.card_erase_add_one hmem
      omega
    · omega
    · omega

variable {subscriptions : List Subscription} {current : Finset TopicHash}

theorem maxCount_eq_ok {filter : Filter} {topics perRequest : Nat}
    (hok : (maxCount filter topics perRequest).filterIncomingSubscriptions current subscriptions = .ok result) :
    filter.filterIncomingSubscriptions current subscriptions = .ok result ∧ subscriptions.length ≤ perRequest ∧
      newSubscribed current result + current.card ≤ topics + unsubscribed current result := by
  rw [filterIncomingSubscriptions] at hok
  split_ifs at hok with hlen
  cases hin : filter.filterIncomingSubscriptions current subscriptions with
  | error => simp [hin, bind, Except.bind] at hok
  | ok =>
    simp only [hin, bind, Except.bind] at hok
    split_ifs at hok with hm
    cases hok
    exact ⟨rfl, Nat.le_of_not_lt hlen, Nat.le_of_not_lt hm⟩

/-- What a filter lets through has one entry for each topic. -/
theorem nodup_result (filter : Filter) (hok : filter.filterIncomingSubscriptions current subscriptions = .ok result) :
    (result.map (·.topicHash)).Nodup := by
  have hs (filter : Filter) := (nodup_deduplicate subscriptions).sublist ((set_sublist filter _).map (·.topicHash))
  induction filter with
  | leaf can =>
    cases hok
    exact hs (leaf can)
  | maxCount filter topics perRequest ih => exact ih (maxCount_eq_ok hok).1
  | combined filter1 filter2 =>
    cases hok
    exact hs (combined filter1 filter2)

/-- A request that a filter accepts is within all of its maxima if and only if it is within those that stand within a
combined filter. -/
theorem respects_iff_bypassed (filter : Filter)
    (hok : filter.filterIncomingSubscriptions current subscriptions = .ok result) :
    (∀ limit ∈ filter.limits, Respects subscriptions current result limit) ↔
      ∀ limit ∈ filter.bypassed, Respects subscriptions current result limit := by
  refine ⟨fun hall limit hmem => hall limit (bypassed_subset filter hmem), fun hall => ?_⟩
  have hcard := card_applyAll current (nodup_result filter hok)
  induction filter with
  | leaf => exact hall
  | maxCount filter topics perRequest ih =>
    obtain ⟨hin, hlen, _⟩ := maxCount_eq_ok hok
    intro limit hmem
    rcases List.mem_cons.1 hmem with rfl | hmem
    · exact ⟨by dsimp only; omega, hlen⟩
    · exact ih hin hall limit hmem
  | combined => exact hall

theorem respects_nested :
    let filter := maxCount (combined (maxCount (leaf fun _ => true) 2 3) (maxCount (leaf fun _ => true) 1 2)) 1 1
    filter.filterIncomingSubscriptions ∅ [entryFor .subscribe] = .ok [entryFor .subscribe] ∧
      ∀ limit ∈ filter.limits, Respects [entryFor .subscribe] ∅ [entryFor .subscribe] limit := by
  refine ⟨rfl, (respects_iff_bypassed _ rfl).2 ?_⟩
  simp only [bypassed, limits, List.singleton_append, List.forall_mem_cons, List.not_mem_nil, false_imp_iff,
    implies_true, and_true]
  exact ⟨⟨by decide, by decide⟩, by decide, by decide⟩

/-- A filter that allows no entry and no topic, combined with another one: both maxima are passed over. -/
theorem maxCount_bypassed : let filter := combined (maxCount (leaf fun _ => true) 0 0) (leaf fun _ => true)
    filter.filterIncomingSubscriptions ∅ [entryFor .subscribe] = .ok [entryFor .subscribe] ∧
      ¬ ∀ limit ∈ filter.limits, Respects [entryFor .subscribe] ∅ [entryFor .subscribe] limit := by
  refine ⟨rfl, fun hall => ?_⟩
  exact absurd (hall (0, 0) (by simp [limits])).2 (by decide)

end Filter
end RustLibp2p.Gossipsub
