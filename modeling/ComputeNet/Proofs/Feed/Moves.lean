import ComputeNet.Proofs.Feed.Course
import ComputeNet.Proofs.World.Play

/-!
# What moves do to feeds

A feed keeps the number under which it was opened. Every move strikes all feeds in the same way, may
cancel some, and may let them work (`feedAt?_act`). Nothing else in a world depends on its feeds
(`bare_act`), so that what becomes of one feed does not depend on another (`Alike.play`).
-/

namespace ComputeNet

namespace Move

/-- The logs that a move reports. -/
def notification? : Move → Option LogNotification
  | .happen (.logs notification) => some notification
  | _ => none

/-- The endpoint ends every stream with this move. -/
def endsStreams : Move → Bool
  | .happen .streamsClose => true
  | _ => false

end Move

namespace Feed

/-- What a move does to all feeds before some are cancelled. -/
def struck (f : Feed) : Move → Feed
  | .happen (.logs notification) => f.notice notification
  | .happen .streamsClose => f.closeStream
  | _ => f

/-- What a move does to a feed: it may also cancel it, and then let it work through what has
come. -/
def undergo (cancels works : Bool) (m : Move) (f : Feed) : Feed :=
  let kept := if cancels then (f.struck m).cancel else f.struck m
  if works then kept.poll else kept

variable {scope : Scope} {asks : Bool} {failsAt : Option Nat} {told : List LogNotification}
  {ended cancelled : Bool} {f : Feed}

theorem Fed.struck (h : Fed scope asks failsAt told ended cancelled f) (m : Move) :
    Fed scope asks failsAt (if ended then told else told ++ m.notification?.toList)
      (ended || m.endsStreams) cancelled (f.struck m) := by
  have same {m : Move} (hnone : m.notification? = none) (hends : m.endsStreams = false) :
      Fed scope asks failsAt (if ended then told else told ++ m.notification?.toList)
        (ended || m.endsStreams) cancelled f := by
    rwa [hnone, hends, Option.toList_none, List.append_nil, ite_self, Bool.or_false]
  cases m with
  | settle => exact same rfl rfl
  | happen happening =>
    cases happening with
    | logs notification =>
      change Fed scope asks failsAt (if ended then told else told ++ [notification])
        (ended || false) cancelled (f.notice notification)
      rw [Bool.or_false]
      exact h.notice notification
    | streamsClose =>
      change Fed scope asks failsAt (if ended then told else told ++ []) (ended || true) cancelled
        f.closeStream
      rw [List.append_nil, ite_self, Bool.or_true]
      exact h.closeStream
    | _ => exact same rfl rfl

private theorem isActive_struck (f : Feed) (m : Move) : (f.struck m).isActive = f.isActive := by
  rw [struck.eq_def]
  split <;> rfl

/-- Nothing happens any more to a feed that is not active and has no stream. -/
private theorem undergo_cancel (f : Feed) (cancels works : Bool) (m : Move) :
    f.cancel.undergo cancels works m = f.cancel := by
  have hstruck : f.cancel.struck m = f.cancel := by
    rw [struck.eq_def]
    split <;> rfl
  rw [undergo, hstruck]
  cases cancels <;> cases works <;> rfl

/-- With the move that cancels it, a feed delivers nothing. -/
theorem undergo_true (f : Feed) (works : Bool) (m : Move) :
    (f.undergo true works m).cancel = f.undergo true works m ∧
      (f.undergo true works m).delivered = f.delivered := by
  have hdelivered : (f.struck m).delivered = f.delivered := by
    rw [struck.eq_def]
    split <;> rfl
  cases works
  · exact ⟨rfl, hdelivered⟩
  · exact ⟨rfl, (delivered_poll_of_inactive (isActive_cancel _)).trans hdelivered⟩

/-- How a move changes what has become of a feed. -/
theorem Fed.undergo (h : Fed scope asks failsAt told ended cancelled f) (cancels works : Bool)
    (m : Move) {told' : List LogNotification} {ended' : Bool}
    (htold : told' = if ended then told else told ++ m.notification?.toList)
    (hended : ended' = (ended || m.endsStreams)) :
    Fed scope asks failsAt told' ended' (cancelled || cancels) (f.undergo cancels works m) ∧
      ((f.undergo cancels works m).isActive = false ↔ f.isActive = false ∨ cancels = true ∨
        works = true ∧ ended' = true ∧
          takes failsAt (told'.flatMap (·.events scope)) = told'.flatMap (·.events scope)) := by
  have hstruck := h.struck m
  rw [← htold, ← hended] at hstruck
  rw [Feed.undergo, ← isActive_struck f m]
  cases cancels with
  | true =>
    rw [Bool.or_true]
    cases works with
    | true => exact ⟨hstruck.cancel, by simp [Feed.cancel, Feed.poll]⟩
    | false => exact ⟨hstruck.cancel, by simp [Feed.cancel]⟩
  | false =>
    rw [Bool.or_false]
    cases works with
    | true =>
      obtain ⟨hpoll, -, hinactive⟩ := hstruck.poll
      exact ⟨hpoll, by simpa using hinactive⟩
    | false => exact ⟨hstruck, by simp⟩

end Feed

namespace World

/-- The feed that was opened as the `n`-th, counted from 0. -/
def feedAt? (w : World) (n : Nat) : Option Feed := w.feeds.reverse[n]?.map (·.feed)

/-- The number of the latest of some feeds that goes by a name; the names are given latest first. -/
def numberOf (id : String) : List String → Option Nat
  | [] => none
  | name :: names => if name = id then some names.length else numberOf id names

/-- The number of the feed that goes by a name. -/
def handle? (w : World) (id : String) : Option Nat := numberOf id (w.feeds.map (·.id))

/-- The client can open a feed now. -/
def canOpen (w : World) : Bool :=
  w.client.canSubscribe && (w.endpoint.serve .logsSubscribe).isOk

/-- A move cancels the `n`-th feed, by its name or because another feed takes its name. -/
def cancels (w : World) (n : Nat) : Move → Bool
  | .happen (.cancelFeed id) => w.handle? id = some n
  | .happen (.subscribe id _ _ _) => w.canOpen && w.handle? id = some n
  | _ => false

/-- The background work goes on with a move. -/
def works (w : World) : Move → Bool
  | .settle => true
  | .happen (.time _) => true
  | .happen (.wait ..) => true
  | .happen (.subscribe ..) => w.canOpen
  | .happen (.list ..) => true
  | .happen (.history ..) => true
  | _ => false

theorem feedAt?_mapFeeds (w : World) (f : Feed → Feed) (n : Nat) :
    (w.mapFeeds f).feedAt? n = (w.feedAt? n).map f := by
  simp only [feedAt?, mapFeeds, ← List.map_reverse, List.getElem?_map, Option.map_map]
  rfl

theorem feedAt?_settle (w : World) (n : Nat) :
    w.settle.feedAt? n = (w.feedAt? n).map Feed.poll := by
  rw [feedAt?, settle_feeds, ← feedAt?, feedAt?_mapFeeds]

/-- However often the feeds work while time passes, they get no further than with the first time. -/
theorem feeds_runUntil (target : Nat) (w : World) :
    (w.runUntil target).feeds = (w.mapFeeds Feed.poll).feeds := by
  fun_induction runUntil target w with
  | case1 w t ht h ih =>
    rw [ih, mapFeeds, settle_feeds]
    simp only [mapFeeds, List.map_map]
    refine List.map_congr_left fun e _ => ?_
    simp only [Function.comp_apply, Feed.poll_poll]
  | case2 w t ht h => exact settle_feeds _
  | case3 w ht => exact settle_feeds _

private theorem feedAt?_runUntil (target : Nat) (w : World) (n : Nat) :
    (w.runUntil target).feedAt? n = (w.feedAt? n).map Feed.poll := by
  rw [feedAt?, feeds_runUntil, ← feedAt?, feedAt?_mapFeeds]

theorem numberOf_lt {id : String} {names : List String} {n : Nat}
    (h : numberOf id names = some n) : n < names.length := by
  induction names with
  | nil => cases h
  | cons name names ih =>
    rw [numberOf] at h
    split at h
    · cases h
      exact Nat.lt_succ_self _
    · exact Nat.lt_succ_of_lt (ih h)

theorem names_modifyFeed (id : String) (f : Feed → Feed) (entries : List FeedEntry) :
    (modifyFeed id f entries).map (·.id) = entries.map (·.id) := by
  induction entries with
  | nil => rfl
  | cons e entries ih =>
    rw [modifyFeed]
    split
    · rfl
    · rw [List.map_cons, List.map_cons, ih]

@[simp] theorem length_modifyFeed (id : String) (f : Feed → Feed) (entries : List FeedEntry) :
    (modifyFeed id f entries).length = entries.length := by
  simpa using congrArg List.length (names_modifyFeed id f entries)

/-- Only the latest feed of a name is changed by its name. -/
private theorem getElem?_modifyFeed (id : String) (f : Feed → Feed) (entries : List FeedEntry)
    (n : Nat) :
    (modifyFeed id f entries).reverse[n]?.map (·.feed) =
      if numberOf id (entries.map (·.id)) = some n then
        entries.reverse[n]?.map fun e => f e.feed
      else entries.reverse[n]?.map (·.feed) := by
  induction entries with
  | nil => simp [modifyFeed, numberOf]
  | cons e entries ih =>
    rw [modifyFeed, List.map_cons, numberOf, List.length_map]
    by_cases hid : e.id = id
    · rw [if_pos hid, if_pos hid, getElem?_reverse_cons, getElem?_reverse_cons]
      by_cases hn : n = entries.length
      · rw [if_pos hn, if_pos hn, if_pos (congrArg some hn.symm)]
        rfl
      · rw [if_neg hn, if_neg hn, if_neg fun heq => hn (Option.some.inj heq).symm]
    · rw [if_neg hid, if_neg hid, getElem?_reverse_cons, getElem?_reverse_cons, length_modifyFeed]
      by_cases hn : n = entries.length
      · have hnot : numberOf id (entries.map (·.id)) ≠ some n := by
          intro heq
          have hlt := numberOf_lt heq
          rw [List.length_map] at hlt
          omega
        rw [if_pos hn, if_pos hn, if_neg hnot]
      · rw [if_neg hn, if_neg hn, ih]

theorem modifyFeed_eq_self {id : String} {g : Feed → Feed} {entries : List FeedEntry} {n : Nat}
    {f : Feed} (hnumber : numberOf id (entries.map (·.id)) = some n)
    (hf : entries.reverse[n]?.map (·.feed) = some f) (hg : g f = f) :
    modifyFeed id g entries = entries := by
  induction entries with
  | nil => rfl
  | cons e entries ih =>
    rw [List.map_cons, numberOf, List.length_map] at hnumber
    rw [getElem?_reverse_cons] at hf
    rw [modifyFeed]
    by_cases hid : e.id = id
    · rw [if_pos hid] at hnumber ⊢
      rw [if_pos (Option.some.inj hnumber).symm, Option.map_some, Option.some.injEq] at hf
      rw [hf, hg, ← hf]
    · rw [if_neg hid] at hnumber ⊢
      have hlt := numberOf_lt hnumber
      rw [List.length_map] at hlt
      rw [if_neg (Nat.ne_of_lt hlt)] at hf
      rw [ih hnumber hf]

theorem feedAt?_cons (w : World) (e : FeedEntry) (entries : List FeedEntry) (n : Nat) :
    { w with feeds := e :: entries }.feedAt? n =
      if n = entries.length then some e.feed else { w with feeds := entries }.feedAt? n := by
  rw [feedAt?, getElem?_reverse_cons]
  split <;> rfl

theorem lt_of_feedAt? {w : World} {n : Nat} {f : Feed} (h : w.feedAt? n = some f) :
    n < w.feeds.length := by
  obtain ⟨e, he, -⟩ := Option.map_eq_some_iff.mp h
  obtain ⟨hlt, -⟩ := List.getElem?_eq_some_iff.mp he
  rwa [List.length_reverse] at hlt

/-- A feed is struck by a cancelling if it is the one that goes by the name. -/
theorem feedAt?_cancelFeed (w : World) (id : String) (n : Nat) :
    { w with feeds := modifyFeed id Feed.cancel w.feeds }.feedAt? n =
      if w.handle? id = some n then (w.feedAt? n).map Feed.cancel else w.feedAt? n := by
  rw [feedAt?, getElem?_modifyFeed, feedAt?, Option.map_map]
  rfl

/-- A feed is opened if the client can open one now. -/
theorem after_subscribe (w : World) (id : String) (scope : Scope) (asks : Bool)
    (failsAt : Option Nat) :
    w.after (.subscribe id scope asks failsAt) =
      if w.canOpen then
        { w with feeds := ⟨id, { scope, asks, failsAt }, 0⟩ ::
            modifyFeed id Feed.cancel w.feeds }.settle
      else w := by
  rw [after, subscribe, canOpen]
  cases w.client.canSubscribe with
  | false => rfl
  | true =>
    cases w.endpoint.serve .logsSubscribe with
    | error e => rfl
    | ok => rfl

theorem subscribe_eq_ok_iff {w w' : World} {id : String} {scope : Scope} {asks : Bool}
    {failsAt : Option Nat} :
    w.subscribe id scope asks failsAt = .ok w' ↔
      w.canOpen = true ∧ w.act (.happen (.subscribe id scope asks failsAt)) = w' := by
  rw [act, after, subscribe, canOpen]
  cases w.client.canSubscribe with
  | false => exact iff_of_false (by rintro ⟨⟩) (by rintro ⟨⟨⟩, -⟩)
  | true =>
    cases w.endpoint.serve .logsSubscribe with
    | error e => exact iff_of_false (by rintro ⟨⟩) (by rintro ⟨⟨⟩, -⟩)
    | ok => exact ⟨fun h => ⟨rfl, Except.ok.inj h⟩, fun h => congrArg Except.ok h.2⟩

/-- What a move does to the feeds that are there before it. -/
theorem feedAt?_act {w : World} {n : Nat} {f : Feed} (h : w.feedAt? n = some f) (m : Move) :
    (w.act m).feedAt? n = some (f.undergo (w.cancels n m) (w.works m) m) := by
  have kept {w' : World} (hfeeds : w'.feeds = w.feeds) : w'.feedAt? n = some f := by
    rw [feedAt?, hfeeds]
    exact h
  have settled {w' : World} {g : Feed} (hg : w'.feedAt? n = some g) :
      w'.settle.feedAt? n = some g.poll := by rw [feedAt?_settle, hg, Option.map_some]
  have passed {w' : World} (hfeeds : w'.feeds = w.feeds) (target : Nat) :
      (w'.runUntil target).feedAt? n = some f.poll := by
    rw [feedAt?_runUntil, kept hfeeds, Option.map_some]
  have mapped {w' : World} (hfeeds : w'.feeds = w.feeds) (g : Feed → Feed) :
      (w'.mapFeeds g).feedAt? n = some (g f) := by
    rw [feedAt?_mapFeeds, kept hfeeds, Option.map_some]
  have struck (id : String) : { w with feeds := modifyFeed id Feed.cancel w.feeds }.feedAt? n =
      some (if decide (w.handle? id = some n) then f.cancel else f) := by
    rw [feedAt?_cancelFeed, h]
    by_cases hid : w.handle? id = some n <;> simp [hid]
  cases m with
  | settle => exact settled h
  | happen happening =>
    cases happening with
    | logs notification => exact mapped rfl _
    | streamsClose => exact mapped rfl _
    | time ms => exact passed rfl _
    | list kind status => exact passed rfl _
    | history scope options =>
      refine passed ?_ _
      rfl
    | wait id kind request timeout => exact settled (kept rfl)
    | cancelFeed id => exact struck id
    | subscribe id scope asks failsAt =>
      rw [act, after_subscribe]
      simp only [Feed.undergo, cancels, works]
      by_cases hopen : w.canOpen = true
      · simp only [hopen, Bool.true_and, if_true]
        refine settled (Eq.trans (feedAt?_cons w _ _ n) ?_)
        rw [if_neg, struck id]
        · rfl
        · exact Nat.ne_of_lt (length_modifyFeed id Feed.cancel w.feeds ▸ lt_of_feedAt? h)
      · simp only [hopen, Bool.false_and, Bool.false_eq_true, if_false]
        exact h
    | _ => exact kept rfl

/-- Nothing happens any more to a feed that was cancelled. -/
theorem feedAt?_play_of_cancel {w : World} {n : Nat} {f : Feed} (h : w.feedAt? n = some f)
    (hcancel : f.cancel = f) (moves : List Move) : (w.play moves).feedAt? n = some f := by
  induction moves generalizing w with
  | nil => exact h
  | cons m moves ih =>
    have hact := feedAt?_act h m
    rw [← hcancel, Feed.undergo_cancel, hcancel] at hact
    exact ih hact

/-! ## Other feeds -/

/-- The world without its feeds. -/
def bare (w : World) : World := { w with feeds := [] }

theorem bare_settle (w : World) : w.settle.bare = w.bare.settle := by
  rw [settle_eq, settle_eq]
  rfl

theorem bare_runUntil (target : Nat) (w : World) :
    (w.runUntil target).bare = w.bare.runUntil target := by
  fun_induction runUntil target w with
  | case1 w t ht h ih =>
    rw [ih, bare_settle, runUntil.eq_def target w.bare, show w.bare.nextTimer? = some t from ht]
    exact (if_pos h).symm
  | case2 w t ht h =>
    rw [bare_settle, runUntil.eq_def target w.bare, show w.bare.nextTimer? = some t from ht]
    exact (if_neg h).symm
  | case3 w ht =>
    rw [bare_settle, runUntil.eq_def target w.bare, show w.bare.nextTimer? = none from ht]
    rfl

/-- Feeds make no difference to anything else. -/
theorem bare_act (w : World) (m : Move) : (w.act m).bare = (w.bare.act m).bare := by
  have settled {w' : World} : w'.settle.bare = w'.bare.settle.bare :=
    (bare_settle w').trans (bare_settle w'.bare).symm
  cases m with
  | settle => exact settled
  | happen happening =>
    cases happening with
    | wait id kind request timeout => exact settled
    | time ms => exact (bare_runUntil _ w).trans (bare_runUntil _ w.bare).symm
    | list kind status => exact (bare_runUntil _ w).trans (bare_runUntil _ w.bare).symm
    | history scope options =>
      refine (bare_runUntil _ _).trans (Eq.trans ?_ (bare_runUntil _ _).symm)
      rfl
    | subscribe id scope asks failsAt =>
      rw [act, act, after_subscribe, after_subscribe, show w.bare.canOpen = w.canOpen from rfl]
      split
      · rw [bare_settle, bare_settle]
        rfl
      · rfl
    | _ => rfl

theorem names_act (w : World) (m : Move) :
    (w.act m).feeds.map (·.id) = (match m with
      | .happen (.subscribe id _ _ _) => if w.canOpen then [id] else []
      | _ => []) ++ w.feeds.map (·.id) := by
  have mapped (w' : World) (f : Feed → Feed) :
      (w'.mapFeeds f).feeds.map (·.id) = w'.feeds.map (·.id) := by
    rw [mapFeeds, List.map_map]
    rfl
  have settled (w' : World) : w'.settle.feeds.map (·.id) = w'.feeds.map (·.id) := by
    rw [settle_feeds]
    exact mapped w' Feed.poll
  cases m with
  | settle => exact settled w
  | happen happening =>
    cases happening with
    | logs notification => exact mapped _ _
    | streamsClose => exact mapped _ _
    | time ms => exact (congrArg _ (feeds_runUntil _ _)).trans (mapped _ _)
    | list kind status => exact (congrArg _ (feeds_runUntil _ _)).trans (mapped _ _)
    | history scope options => exact (congrArg _ (feeds_runUntil _ _)).trans (mapped _ _)
    | wait id kind request timeout => exact settled _
    | cancelFeed id => exact names_modifyFeed id Feed.cancel w.feeds
    | subscribe id scope asks failsAt =>
      rw [act, after_subscribe]
      by_cases hopen : w.canOpen = true
      · simp only [hopen, if_true]
        refine (settled _).trans ?_
        exact congrArg (id :: ·) (names_modifyFeed id Feed.cancel w.feeds)
      · simp only [hopen]
        rfl
    | _ => rfl

/-- Two worlds in which the `n`-th feed is the same, and which differ only in what other feeds have
got to. -/
structure Alike (n : Nat) (w w' : World) : Prop where
  bare : w.bare = w'.bare
  names : w.feeds.map (·.id) = w'.feeds.map (·.id)
  feed : ∃ f, w.feedAt? n = some f ∧ w'.feedAt? n = some f

theorem Alike.act {n : Nat} {w w' : World} (h : Alike n w w') (m : Move) :
    Alike n (w.act m) (w'.act m) := by
  have hopen : w.bare.canOpen = w'.bare.canOpen := congrArg canOpen h.bare
  change w.canOpen = w'.canOpen at hopen
  have hhandle (id : String) : w.handle? id = w'.handle? id := congrArg (numberOf id) h.names
  have hcancels : w.cancels n m = w'.cancels n m := by
    unfold cancels
    rw [hopen]
    simp only [hhandle]
  have hworks : w.works m = w'.works m := by
    unfold works
    rw [hopen]
  obtain ⟨f, hf, hf'⟩ := h.feed
  refine ⟨?_, ?_, _, feedAt?_act hf m, ?_⟩
  · rw [bare_act, h.bare, ← bare_act]
  · rw [names_act, names_act, h.names, hopen]
  · rw [feedAt?_act hf' m, hcancels, hworks]

theorem Alike.play {n : Nat} {w w' : World} (h : Alike n w w') (moves : List Move) :
    Alike n (w.play moves) (w'.play moves) := by
  induction moves generalizing w w' with
  | nil => exact h
  | cons m moves ih => exact ih (h.act m)

/-- Once a feed goes by another name than the one that is cancelled, nothing changes for it. -/
theorem alike_cancelFeed {w : World} {n : Nat} {f : Feed} (h : w.feedAt? n = some f) {id : String}
    (hother : w.handle? id ≠ some n) : Alike n (w.act (.happen (.cancelFeed id))) w :=
  ⟨rfl, names_modifyFeed id Feed.cancel w.feeds, f, by
    rw [act, after, feedAt?_cancelFeed, if_neg hother, h], h⟩

end World

end ComputeNet
