import Dce.Router.Locate

/-!
# The entries of the mapping

Each path with a suffix leads to the apis that were pushed for it, in their
order, as long as no two paths are confused with each other.
-/

namespace Dce.Routing

open Text

variable {Rp : Type}

theorem suffixPath_inj_suffix {path left right : Str}
    (same : suffixPath path left = suffixPath path right) : left = right := by
  have tails := List.append_cancel_left same
  cases left with
  | nil =>
      cases right with
      | nil => rfl
      | cons c right => simp at tails
  | cons c left =>
      cases right with
      | nil => simp at tails
      | cons d right => simpa using tails

theorem suffixPath_inj_path {left right leftSuffix rightSuffix : Str}
    (sameLength : left.length = right.length)
    (same : suffixPath left leftSuffix = suffixPath right rightSuffix) : left = right :=
  (List.append_inj same sameLength).1

theorem eqIgnoreAsciiCase_iff {left right : Str} :
    eqIgnoreAsciiCase left right = true ↔ left.map Char.toLower = right.map Char.toLower := by
  simp [eqIgnoreAsciiCase]

theorem length_of_eqIgnoreAsciiCase {left right : Str}
    (same : eqIgnoreAsciiCase left right = true) : left.length = right.length := by
  have lengths := congrArg List.length (eqIgnoreAsciiCase_iff.mp same)
  simpa using lengths

namespace Router

variable (router : Router Rp) {registered buffer : List (Api Rp)} {path key : Str}
  {mapping : Std.ExtTreeMap Str (List (Api Rp))}

/-- The key of an api with one of its suffixes. -/
def keyOf (api : Api Rp) (suffix : Suffix) : Str :=
  suffixPath (router.omittedPath api.path) suffix.text

/-- A path and one of the suffixes of an api make up a key. -/
def spells (path key : Str) (api : Api Rp) : Bool :=
  api.suffixes.toList.any fun suffix => suffixPath path suffix.text == key

def hasKey (key : Str) (api : Api Rp) : Bool := spells (router.omittedPath api.path) key api

/-- The omitted path of an api is the given one but for the case of letters. -/
def akin (path : Str) (api : Api Rp) : Bool :=
  eqIgnoreAsciiCase path (router.omittedPath api.path)

/-- What registration promises of a pushed api and one of its suffixes. -/
structure Entered (registered : List (Api Rp)) (key : Str) : Prop where
  entry : router.apisMapping[key]? = some (registered.filter (router.hasKey key))
  first : ∀ path rp api,
    registered.find? (fun api => router.hasKey key api && api.methodMatch rp) = some api →
      (router.apisMapping[key]?).map (apiMatch path rp) = some (.ok api)

def Registers (registered : List (Api Rp)) : Prop :=
  ∀ api ∈ registered, ∀ suffix ∈ api.suffixes,
    router.Entered registered (router.keyOf api suffix)

/-- No two paths are told apart by the case of letters only, or share a key. -/
def Apart (registered : List (Api Rp)) : Prop :=
  ∀ left ∈ registered, ∀ right ∈ registered,
    (eqIgnoreAsciiCase (router.omittedPath left.path) (router.omittedPath right.path) = true ∨
      ∃ key, router.hasKey key left = true ∧ router.hasKey key right = true) →
      router.omittedPath left.path = router.omittedPath right.path

variable {router}

theorem spells_iff {api : Api Rp} :
    spells path key api = true ↔
      ∃ suffix ∈ api.suffixes, suffixPath path suffix.text = key := by
  simp [spells, Std.ExtTreeSet.mem_toList]

theorem hasKey_keyOf {api : Api Rp} {suffix : Suffix} (mem : suffix ∈ api.suffixes) :
    router.hasKey (router.keyOf api suffix) api = true := spells_iff.mpr ⟨suffix, mem, rfl⟩

/-- A path spells the key of an api only if it is as long as the api's own path, or the same. -/
theorem eq_of_spells {api : Api Rp} (alike : router.akin path api = true)
    (spelled : spells path key api = true) (own : router.hasKey key api = true) :
    path = router.omittedPath api.path := by
  rcases spells_iff.mp spelled with ⟨left, _, leftKey⟩
  rcases spells_iff.mp own with ⟨right, _, rightKey⟩
  exact suffixPath_inj_path (length_of_eqIgnoreAsciiCase alike) (leftKey.trans rightKey.symm)

theorem akin_self (api : Api Rp) : router.akin (router.omittedPath api.path) api = true :=
  eqIgnoreAsciiCase_iff.mpr rfl

theorem akin_congr {left right : Str} (same : eqIgnoreAsciiCase left right = true) :
    router.akin left = router.akin right := by
  funext api
  rw [Bool.eq_iff_iff, akin, akin, eqIgnoreAsciiCase_iff, eqIgnoreAsciiCase_iff,
    eqIgnoreAsciiCase_iff.mp same]

theorem takeSiblings_cons (path : Str) (api : Api Rp) (buffer : List (Api Rp))
    (suffixes : Suffixes) (apis : List (Api Rp)) :
    router.takeSiblings path (api :: buffer) suffixes apis =
      let taken := router.takeSiblings path buffer suffixes apis
      if router.akin path api then (taken.1, taken.2.1 ∪ api.suffixes, api :: taken.2.2)
      else (api :: taken.1, taken.2) := rfl

theorem takeSiblings_kept (path : Str) (buffer : List (Api Rp)) (suffixes : Suffixes)
    (apis : List (Api Rp)) :
    (router.takeSiblings path buffer suffixes apis).1 = buffer.filter (!router.akin path ·) := by
  induction buffer with
  | nil => rfl
  | cons api buffer ih =>
      rw [takeSiblings_cons, List.filter_cons]
      by_cases same : router.akin path api = true
      · simp [same, ih]
      · simp [same, ih]

theorem takeSiblings_apis (path : Str) (buffer : List (Api Rp)) (suffixes : Suffixes)
    (apis : List (Api Rp)) :
    (router.takeSiblings path buffer suffixes apis).2.2 =
      buffer.filter (router.akin path) ++ apis := by
  induction buffer with
  | nil => rfl
  | cons api buffer ih =>
      rw [takeSiblings_cons, List.filter_cons]
      by_cases same : router.akin path api = true
      · simp [same, ih]
      · simp [same, ih]

theorem mem_takeSiblings (path : Str) (buffer : List (Api Rp)) (suffixes : Suffixes)
    (apis : List (Api Rp)) (suffix : Suffix) :
    suffix ∈ (router.takeSiblings path buffer suffixes apis).2.1 ↔
      suffix ∈ suffixes ∨
        ∃ api ∈ buffer.filter (router.akin path), suffix ∈ api.suffixes := by
  induction buffer with
  | nil => simp [takeSiblings]
  | cons api buffer ih =>
      rw [takeSiblings_cons, List.filter_cons]
      by_cases same : router.akin path api = true
      · simp only [same, if_true, Std.ExtTreeSet.mem_union_iff, List.mem_cons, exists_eq_or_imp]
        rw [ih]
        exact or_assoc.trans (or_congr_right or_comm)
      · simpa [same] using ih

/-- What a group is entered under. -/
theorem getElem?_foldl_enter (path key : Str) (apis : List (Api Rp)) (suffixes : List Suffix)
    (mapping : Std.ExtTreeMap Str (List (Api Rp))) :
    (suffixes.foldl (enter path apis) mapping)[key]? =
      if suffixes.any fun suffix => suffixPath path suffix.text == key then
        some (apis.filter (spells path key))
      else mapping[key]? := by
  induction suffixes generalizing mapping with
  | nil => rfl
  | cons suffix suffixes ih =>
      rw [List.foldl_cons, ih, List.any_cons]
      by_cases later : suffixes.any (fun suffix => suffixPath path suffix.text == key) = true
      · rw [if_pos later, if_pos (by simp [later])]
      · rw [if_neg later]
        by_cases here : suffixPath path suffix.text = key
        · rw [if_pos (by simp [here]), enter, ← here, Std.ExtTreeMap.getElem?_insert_self]
          refine congrArg some (List.filter_congr fun api _ => ?_)
          rw [Bool.eq_iff_iff, Std.ExtTreeSet.contains_iff_mem, spells_iff]
          constructor
          · intro mem
            exact ⟨suffix, mem, rfl⟩
          · rintro ⟨other, mem, same⟩
            have texts := suffixPath_inj_suffix same
            cases other
            cases suffix
            cases texts
            exact mem
        · rw [if_neg (by simpa [here] using later), enter, Std.ExtTreeMap.getElem?_insert,
            if_neg (by simpa using here)]

/-- Closing takes the group of the last api out of the buffer and enters it. -/
theorem closeFrom_step (fuel : Nat) (buffer : List (Api Rp)) (last : Api Rp)
    (mapping : Std.ExtTreeMap Str (List (Api Rp))) :
    let path := router.omittedPath last.path
    let apis := (buffer ++ [last]).filter (router.akin path)
    ∃ next : Std.ExtTreeMap Str (List (Api Rp)),
      router.closeFrom (fuel + 1) (buffer ++ [last]) mapping =
        router.closeFrom fuel ((buffer ++ [last]).filter (!router.akin path ·)) next ∧
      ∀ key, next[key]? =
        if apis.any (spells path key) then some (apis.filter (spells path key))
        else mapping[key]? := by
  intro path apis
  let taken := router.takeSiblings path buffer last.suffixes [last]
  have alike : router.akin path last = true := akin_self last
  have takenApis : taken.2.2 = apis := by
    simp [taken, apis, takeSiblings_apis, alike]
  refine ⟨taken.2.1.toList.foldl (enter path taken.2.2) mapping, ?_, fun key => ?_⟩
  · have kept : taken.1 = (buffer ++ [last]).filter (!router.akin path ·) := by
      simp [taken, takeSiblings_kept, alike]
    rw [← kept, closeFrom, List.getLast?_concat]
    simp only [List.dropLast_concat]
    rfl
  · rw [getElem?_foldl_enter, takenApis]
    refine if_congr ?_ rfl rfl
    simp only [List.any_eq_true, beq_iff_eq, Std.ExtTreeSet.mem_toList, spells_iff, apis]
    constructor
    · rintro ⟨suffix, mem, spelled⟩
      rcases (mem_takeSiblings path buffer last.suffixes [last] suffix).mp mem with
        own | ⟨api, there, mem⟩
      · exact ⟨last, by simp [alike], suffix, own, spelled⟩
      · refine ⟨api, ?_, suffix, mem, spelled⟩
        rw [List.filter_append]
        exact List.mem_append_left _ there
    · rintro ⟨api, there, suffix, mem, spelled⟩
      refine ⟨suffix, (mem_takeSiblings path buffer last.suffixes [last] suffix).mpr ?_,
        spelled⟩
      rw [List.filter_append, List.mem_append] at there
      rcases there with earlier | final
      · exact .inr ⟨api, earlier, mem⟩
      · rw [List.filter_cons_of_pos alike] at final
        rw [List.mem_singleton.mp final] at mem
        exact .inl mem

/-- Each entry is that of one group, spelled like the last of its apis. -/
theorem of_closeFrom (fuel : Nat) (buffer : List (Api Rp))
    (mapping : Std.ExtTreeMap Str (List (Api Rp))) {entry : List (Api Rp)}
    (found : (router.closeFrom fuel buffer mapping)[key]? = some entry) :
    mapping[key]? = some entry ∨
      ∃ path, ((buffer.filter (router.akin path)).getLast?).map
          (fun api => router.omittedPath api.path) = some path ∧
        ∀ api ∈ entry, api ∈ buffer ∧ router.akin path api = true ∧
          spells path key api = true := by
  induction fuel generalizing buffer mapping with
  | zero => exact .inl found
  | succ fuel ih =>
      rcases buffer.eq_nil_or_concat with rfl | ⟨buffer, last, rfl⟩
      · exact .inl found
      · rw [List.concat_eq_append] at found ⊢
        rcases router.closeFrom_step fuel buffer last mapping with ⟨next, closed, entered⟩
        rw [closed] at found
        have alike : router.akin (router.omittedPath last.path) last = true := akin_self last
        rcases ih _ _ found with early | ⟨path, representative, group⟩
        · rw [entered] at early
          split at early
          · cases early
            refine .inr ⟨router.omittedPath last.path, by simp [alike], fun api mem => ?_⟩
            simp only [List.mem_filter] at mem
            exact ⟨mem.1.1, mem.1.2, mem.2⟩
          · exact .inl early
        · have kept :
              ∀ api ∈ entry, api ∈ buffer ++ [last] ∧ router.akin path api = true ∧
              spells path key api = true := by
            intro api mem
            rcases group api mem with ⟨within, alike, spelled⟩
            exact ⟨List.mem_of_mem_filter within, alike, spelled⟩
          refine .inr ⟨path, ?_, kept⟩
          rw [← representative, List.filter_filter]
          refine congrArg (fun apis => (List.getLast? apis).map _)
            (List.filter_congr fun api _ => ?_)
          -- the group of `path` lies in what was kept
          rcases Option.map_eq_some_iff.mp representative with ⟨head, final, spelling⟩
          have there := List.mem_of_getLast? final
          simp only [List.mem_filter, Bool.not_eq_true'] at there
          cases mine : router.akin path api with
          | false => rfl
          | true =>
              cases other : router.akin (router.omittedPath last.path) api with
              | false => rfl
              | true =>
                  have same : eqIgnoreAsciiCase (router.omittedPath last.path) path = true :=
                    eqIgnoreAsciiCase_iff.mpr ((eqIgnoreAsciiCase_iff.mp other).trans
                      (eqIgnoreAsciiCase_iff.mp mine).symm)
                  rw [akin_congr same] at there
                  exact absurd (there.1.2.symm.trans there.2) (by simp)

theorem Apart.filter (apart : router.Apart buffer) (keep : Api Rp → Bool) :
    router.Apart (buffer.filter keep) := by
  intro left leftMem right rightMem confused
  exact apart left (List.mem_of_mem_filter leftMem) right (List.mem_of_mem_filter rightMem) confused

/-- Where no two paths are confused, each key holds all its apis. -/
theorem getElem?_closeFrom (fuel : Nat) (buffer : List (Api Rp))
    (mapping : Std.ExtTreeMap Str (List (Api Rp))) (enough : buffer.length ≤ fuel)
    (apart : router.Apart buffer) (key : Str) :
    (router.closeFrom fuel buffer mapping)[key]? =
      if buffer.any (router.hasKey key) then some (buffer.filter (router.hasKey key))
      else mapping[key]? := by
  induction fuel generalizing buffer mapping with
  | zero =>
      rw [List.eq_nil_of_length_eq_zero (Nat.le_zero.mp enough)]
      rfl
  | succ fuel ih =>
      rcases buffer.eq_nil_or_concat with rfl | ⟨buffer, last, rfl⟩
      · rfl
      · rw [List.concat_eq_append] at enough apart ⊢
        rcases router.closeFrom_step fuel buffer last mapping with ⟨next, closed, entered⟩
        let path := router.omittedPath last.path
        have alike : router.akin path last = true := akin_self last
        have fewer : ((buffer ++ [last]).filter (!router.akin path ·)).length ≤ fuel := by
          rw [List.filter_append, List.filter_cons_of_neg (by simp [alike])]
          have bound := List.length_filter_le (fun api => !router.akin path api) buffer
          simp only [List.length_append, List.length_singleton] at enough
          simp only [List.filter_nil, List.append_nil]
          omega
        have whole : ∀ api ∈ buffer ++ [last], router.akin path api = true →
            router.omittedPath api.path = path := by
          intro api mem same
          exact (apart last (by simp) api mem (.inl same)).symm
        have spells_eq : ∀ api ∈ buffer ++ [last], router.akin path api = true →
            spells path key api = router.hasKey key api := by
          intro api mem same
          rw [hasKey, whole api mem same]
        rw [closed, ih _ next fewer (apart.filter _), entered]
        by_cases later : ∃ api ∈ buffer ++ [last], router.akin path api = false ∧
            router.hasKey key api = true
        · -- the key belongs to a later group
          rcases later with ⟨other, otherMem, foreign, otherKey⟩
          have none_akin : ∀ api ∈ buffer ++ [last], router.hasKey key api = true →
              router.akin path api = false := by
            intro api mem own
            cases same : router.akin path api with
            | false => rfl
            | true =>
                have spelling := apart other otherMem api mem (.inr ⟨key, otherKey, own⟩)
                rw [whole api mem same] at spelling
                rw [← spelling, akin_self other] at foreign
                cases foreign
          rw [if_pos (List.any_eq_true.mpr
              ⟨other, List.mem_filter.mpr ⟨otherMem, by simp [foreign, path]⟩, otherKey⟩),
            if_pos (List.any_eq_true.mpr ⟨other, otherMem, otherKey⟩), List.filter_filter]
          refine congrArg some (List.filter_congr fun api mem => ?_)
          cases own : router.hasKey key api with
          | false => rfl
          | true => simp [path, none_akin api mem own]
        · -- the key belongs to this group, if to any
          have all_akin : ∀ api ∈ buffer ++ [last], router.hasKey key api = true →
              router.akin path api = true := by
            intro api mem own
            by_contra foreign
            exact later ⟨api, mem, by simpa using foreign, own⟩
          have agree : ∀ api ∈ buffer ++ [last],
              (spells path key api && router.akin path api) = router.hasKey key api := by
            intro api mem
            cases alike : router.akin path api with
            | true => simp [spells_eq api mem alike]
            | false =>
                cases own : router.hasKey key api with
                | false => simp
                | true => simp [all_akin api mem own] at alike
          have sameAny : ((buffer ++ [last]).filter (router.akin path)).any (spells path key) =
              (buffer ++ [last]).any (router.hasKey key) := by
            rw [Bool.eq_iff_iff, List.any_eq_true, List.any_eq_true]
            constructor
            · rintro ⟨api, mem, spelled⟩
              rw [List.mem_filter] at mem
              exact ⟨api, mem.1, by rw [← agree api mem.1, spelled, mem.2]; rfl⟩
            · rintro ⟨api, mem, own⟩
              rw [← agree api mem, Bool.and_eq_true] at own
              exact ⟨api, List.mem_filter.mpr ⟨mem, own.2⟩, own.1⟩
          rw [if_neg, sameAny, List.filter_filter, List.filter_congr agree]
          intro kept
          rcases List.any_eq_true.mp kept with ⟨api, mem, own⟩
          rw [List.mem_filter] at mem
          simp [path, all_akin api mem.1 own] at mem

/-- What no push changes stays when many apis are pushed. -/
theorem foldl_push {α : Type} (field : Router Rp → α)
    (stays : ∀ router api, field (push router api) = field router) (registered : List (Api Rp))
    (router : Router Rp) : field (registered.foldl push router) = field router := by
  induction registered generalizing router with
  | nil => rfl
  | cons api registered ih => rw [List.foldl_cons, ih, stays]

theorem push_fields (registered : List (Api Rp)) (router : Router Rp) :
    (registered.foldl push router).apiBuffer = router.apiBuffer ++ registered ∧
      (registered.foldl push router).apisMapping = router.apisMapping := by
  induction registered generalizing router with
  | nil => simp
  | cons api registered ih =>
      rw [List.foldl_cons]
      rcases ih (router.push api) with ⟨buffer, mapping⟩
      refine ⟨?_, mapping⟩
      rw [buffer, push, List.append_assoc]
      rfl

/-- Getting ready only fills the tree and the mapping. -/
theorem of_ready {order : PathOrder} {closed : Router Rp}
    (ready : router.ready order = .ok closed) :
    ∃ apisTree, buildTree order router.apiBuffer router.apisTree = .ok apisTree ∧
      closed = { router with
        apisTree
        apisMapping :=
          closeFrom router router.apiBuffer.length router.apiBuffer router.apisMapping
        apiBuffer := [] } := by
  rw [Router.ready, closing] at ready
  cases built : buildTree order router.apiBuffer router.apisTree with
  | ok tree =>
      rw [built] at ready
      cases ready
      exact ⟨tree, rfl, rfl⟩
  | err error =>
      rw [built] at ready
      cases ready
  | panic =>
      rw [built] at ready
      cases ready

/-- An entry with all apis of a key gives the first of them that accepts a request. -/
theorem Entered.of_entry
    (entry : router.apisMapping[key]? = some (registered.filter (router.hasKey key))) :
    router.Entered registered key := by
  refine ⟨entry, fun path rp api found => ?_⟩
  have same : (registered.filter (router.hasKey key)).find? (·.methodMatch rp) = some api := by
    rw [List.find?_filter, ← found]
    simp
  rw [entry, Option.map_some, apiMatch, same]

/-- An entry with all apis of a key is spelled like each of them, and like the last of their
group. -/
theorem spelling_of_entry (fuel : Nat)
    (found : (router.closeFrom fuel buffer ∅)[key]? = some (buffer.filter (router.hasKey key))) :
    ∃ path, ((buffer.filter (router.akin path)).getLast?).map
        (fun api => router.omittedPath api.path) = some path ∧
      ∀ api ∈ buffer, router.hasKey key api = true → path = router.omittedPath api.path := by
  rcases of_closeFrom fuel buffer ∅ found with early | ⟨path, representative, group⟩
  · rw [Std.ExtTreeMap.getElem?_empty] at early
    cases early
  · refine ⟨path, representative, fun api mem own => ?_⟩
    rcases group api (List.mem_filter.mpr ⟨mem, own⟩) with ⟨_, alike, spelled⟩
    exact eq_of_spells alike spelled own

/-- Every api is registered under its keys exactly if no two paths are confused. -/
theorem registers_iff {order : PathOrder} {closed : Router Rp}
    (ready : (registered.foldl push new).ready order = .ok closed) :
    closed.Registers registered ↔ closed.Apart registered := by
  let pushed : Router Rp := registered.foldl push new
  rcases push_fields registered (new : Router Rp) with ⟨buffer, empty⟩
  rcases of_ready ready with ⟨tree, -, rfl⟩
  have mapping : ∀ key : Str, (closeFrom pushed pushed.apiBuffer.length pushed.apiBuffer
      pushed.apisMapping)[key]? = (closeFrom pushed registered.length registered ∅)[key]? := by
    intro key
    rw [buffer, empty]
    rfl
  constructor
  · intro registers
    have spelled : ∀ key, ∀ api ∈ registered, pushed.hasKey key api = true →
        ∃ path, ((registered.filter (pushed.akin path)).getLast?).map
            (fun api => pushed.omittedPath api.path) = some path ∧
          ∀ api ∈ registered, pushed.hasKey key api = true →
            path = pushed.omittedPath api.path := by
      intro key api mem own
      rcases spells_iff.mp own with ⟨suffix, member, rfl⟩
      exact spelling_of_entry registered.length
        ((mapping _).symm.trans (registers api mem suffix member).entry)
    have representative : ∀ api ∈ registered,
        ((registered.filter (pushed.akin (pushed.omittedPath api.path))).getLast?).map
          (fun api => pushed.omittedPath api.path) = some (pushed.omittedPath api.path) := by
      intro api mem
      rcases List.exists_mem_of_ne_nil _ api.suffixed with ⟨suffix, member⟩
      have own : pushed.hasKey (pushed.keyOf api suffix) api = true :=
        hasKey_keyOf (Std.ExtTreeSet.mem_toList.mp member)
      rcases spelled _ api mem own with ⟨path, final, same⟩
      rw [← same api mem own]
      exact final
    intro left leftMem right rightMem confused
    rcases confused with alike | ⟨key, leftKey, rightKey⟩
    · have leftFinal := representative left leftMem
      have rightFinal := representative right rightMem
      have sameGroup : pushed.akin (pushed.omittedPath left.path) =
          pushed.akin (pushed.omittedPath right.path) := akin_congr alike
      rw [sameGroup, rightFinal] at leftFinal
      exact (Option.some.inj leftFinal).symm
    · rcases spelled key left leftMem leftKey with ⟨path, -, same⟩
      exact (same left leftMem leftKey).symm.trans (same right rightMem rightKey)
  · intro apart api mem suffix member
    have entry := getElem?_closeFrom registered.length registered ∅ (Nat.le_refl _)
      (show pushed.Apart registered from apart) (pushed.keyOf api suffix)
    rw [if_pos (List.any_eq_true.mpr ⟨api, mem, hasKey_keyOf member⟩)] at entry
    exact Entered.of_entry ((mapping _).trans entry)

/-- A router that got ready with apis, whatever its separators are. -/
def Ready (registered : List (Api Rp)) (closed : Router Rp) : Prop :=
  ∃ order partSeparator boundary,
    (registered.foldl push (new.setSeparator partSeparator boundary)).ready order = .ok closed

/-- The apis of an entry are akin to one of them, whose path and a suffix of each spell the key. -/
theorem Ready.of_group {closed : Router Rp} (ready : Ready registered closed)
    {entry : List (Api Rp)} (found : closed.apisMapping[key]? = some entry) :
    ∃ first ∈ registered, ∀ api ∈ entry, api ∈ registered ∧
      closed.akin (closed.omittedPath first.path) api = true ∧
      spells (closed.omittedPath first.path) key api = true := by
  rcases ready with ⟨order, partSeparator, boundary, ready⟩
  let start : Router Rp := new.setSeparator partSeparator boundary
  rcases push_fields registered start with ⟨buffer, empty⟩
  rcases of_ready ready with ⟨tree, -, rfl⟩
  change (closeFrom _ _ (registered.foldl push start).apiBuffer
    (registered.foldl push start).apisMapping)[key]? = some entry at found
  rw [buffer, empty] at found
  rcases of_closeFrom _ _ _ found with early | ⟨path, representative, group⟩
  · cases early
  · rcases Option.map_eq_some_iff.mp representative with ⟨first, last, rfl⟩
    exact ⟨first, (List.mem_filter.mp (List.mem_of_getLast? last)).1, group⟩

/-- The apis of an entry were pushed, and their paths with one of their suffixes spell its key, but
for the case of letters in the paths. -/
theorem Ready.of_entry {closed : Router Rp} (ready : Ready registered closed)
    {entry : List (Api Rp)} (found : closed.apisMapping[key]? = some entry) :
    ∃ path, ∀ api ∈ entry, api ∈ registered ∧ closed.akin path api = true ∧
      spells path key api = true := by
  rcases ready.of_group found with ⟨first, _, group⟩
  exact ⟨_, group⟩

/-- An omitted path, and one that is not. -/
theorem registers_iff_home :
    let registered : List (Api Unit) :=
      [Api.new none "home/index".toList [] true [], Api.new none "about".toList [] false []]
    ∃ closed, (registered.foldl push new).ready .pushed = .ok closed ∧
      (closed.Registers registered ↔ closed.Apart registered) := by
  intro registered
  have returns : ((registered.foldl push new).ready .pushed).isOk = true := by decide
  rcases Outcome.isOk_iff.mp returns with ⟨closed, ready⟩
  exact ⟨closed, ready, registers_iff ready⟩

/-- Of two paths that differ by the case of letters only, one loses its entry. -/
theorem not_registers : ¬ ∀ (registered : List (Api Unit)) (order : PathOrder)
    (closed : Router Unit), (registered.foldl push new).ready order = .ok closed →
      closed.Registers registered := by
  intro registers
  let registered : List (Api Unit) :=
    [Api.new none "Foo".toList [] false [], Api.new none "foo".toList [] false []]
  have returns : ((registered.foldl push new).ready .pushed).isOk = true := by decide
  rcases Outcome.isOk_iff.mp returns with ⟨closed, ready⟩
  have entry := (registers registered .pushed closed ready (Api.new none "Foo".toList [] false [])
    (by simp [registered]) ⟨[]⟩ (by decide)).entry
  have absent : ((registered.foldl push new).closeFrom 2 registered ∅)["Foo".toList]?.isSome =
      false := by decide
  rcases of_ready ready with ⟨tree, -, rfl⟩
  have there := congrArg Option.isSome entry
  cases absent.symm.trans there

end Router

end Dce.Routing
