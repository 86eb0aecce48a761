import ScimBridge.Proofs.Backend.Server
import ScimBridge.Proofs.Filter.Query
import ScimBridge.Proofs.Service.Requests

/-!
# Paging through a list

A client goes through a list page by page: it asks for the page at some start, and as long as there
are more resources it goes on behind those that it has received. Against a backend that holds a list
of objects this comes to an end, and the client has received the resource of every object once and in
order (`browsing_is_exact`).

1. `against_list`: a page holds the resources of the objects in its place, and states the total.
2. `exists_browses`: by induction on the number of objects that are left.
3. `Browses.unique`: what a client receives does not depend on anything else.
-/

namespace ScimBridge

/-! ## Filters -/

namespace Filter

theorem queryText_ne_empty (table : PathTable) (f : Filter) : f.queryText table ≠ "" := by
  cases f with
  | not inner =>
    unfold queryText
    split <;> simp
  | _ => simp [queryText, presenceText, comparisonText]

theorem translate_ne_empty {table : PathTable} {text : Option String} {query : String}
    (h : translate table text = .ok query) : query ≠ "" := by
  unfold translate at h
  split at h
  · cases h
    decide
  · split at h
    · cases h
      decide
    · obtain ⟨f, -, rfl⟩ := map_eq_ok_iff.1 h
      rw [render_eq]
      exact queryText_ne_empty table f

end Filter

namespace Service

open Backend Backend.Exchange

variable {s : Setup} {kind : Kind}

theorem translateFilter_ne_empty {filter : Value} {text : String}
    (h : s.translateFilter kind filter = .ok text) : text ≠ "" := by
  unfold Setup.translateFilter at h
  split at h
  · exact Filter.translate_ne_empty (mapError_eq_ok_iff.1 h)
  · exact Filter.translate_ne_empty (mapError_eq_ok_iff.1 h)
  · cases h

/-! ## The page of a query -/

/-- Queries for pages of the resources that meet a filter: each names where the page starts, and how
many resources are wanted. Numbers may be spelled in any way that is read. -/
structure AsksPages (s : Setup) (kind : Kind) (query : Int → Fields Value) (text : String) (m : Int) :
    Prop where
  filter (n : Int) : s.translateFilter kind (filterOf (query n)) = .ok text
  start (n : Int) (hn : 1 ≤ n) : ∃ v, (query n).get? "startIndex" = some v ∧ v.toWhole = .ok n
  count (n : Int) : ∃ v, (query n).get? "count" = some v ∧ v.toWhole = .ok m

theorem wholeParam_of_toWhole {query : Fields Value} {name : String} {v : Value} {n : Int}
    (hv : query.get? name = some v) (hn : v.toWhole = .ok n) (usual : Int) :
    Paging.wholeParam query name usual = .ok n := by
  unfold Paging.wholeParam
  rw [hv]
  split
  · contradiction
  · rename_i h
    cases h
    cases hn
  · rename_i h
    cases h
    cases hn
  · rename_i h
    cases h
    rw [hn]

theorem AsksPages.page {query : Int → Fields Value} {text : String} {m : Int}
    (h : AsksPages s kind query text m) {n : Int} (hn : 1 ≤ n) :
    Paging.Page.ofQuery (query n) = .ok ⟨n, min Paging.maxCount (max 0 m)⟩ := by
  obtain ⟨start, hstart, hfirst⟩ := h.start n hn
  obtain ⟨count, hcount, hwidth⟩ := h.count n
  unfold Paging.Page.ofQuery
  rw [wholeParam_of_toWhole hstart hfirst, wholeParam_of_toWhole hcount hwidth]
  show Except.ok (Paging.Page.mk (max 1 n) _) = _
  rw [Int.max_eq_right hn]

/-! ## A list against a backend -/

section

variable {server : Server} {caller : Caller} {c : Client} {query : Int → Fields Value}
  {text : String} {m : Int} {objects : List Value}

/-- A list holds the resources of the objects in its place, and states the total. -/
theorem against_list (hc : Authorized caller.token c) (hquery : AsksPages s kind query text m)
    (hserver : Holds server (c.baseUrl ++ Objects.collectionPath (s.object kind)) (.string text)
      objects)
    {size : Nat} (hsize : min m Paging.maxCount = size) (hpos : 0 < size) (n : Nat)
    {resources : List Value}
    (hresources : ((objects.drop n).take size).mapM (s.resourceOf kind caller.baseUrl) =
      .ok resources) :
    (startedIn (s.list kind (query (n + 1 : Nat)) caller) c).against server =
      (.ok (Paging.listMessage resources (.int objects.length) (n + 1 : Nat)), c) := by
  have hfilter : s.translateFilter kind (((query (n + 1 : Nat)).get? "filter").getD .null) =
      .ok text := hquery.filter _
  have hpage : Paging.Page.ofQuery (query (n + 1 : Nat)) = .ok ⟨(n + 1 : Nat), size⟩ := by
    have hwidth : min Paging.maxCount (max 0 m) = size := by omega
    rw [hquery.page (by omega), hwidth]
  have hfound := against_query hc (translateFilter_ne_empty hfilter) hserver n.succ_pos hpos
  have hask : ∀ action, (startedIn (ask action "" (Objects.query (s.object kind)
      { filter := .string text, start := .int (n + 1 : Nat), count := .int size } caller.token))
      c).against server =
        (.ok ⟨.int objects.length, .array ((objects.drop n).take size)⟩, c) := by
    intro action
    rw [startedIn_ask, against_bind, hfound]
    rfl
  have hobjects : objectsOf (.array ((objects.drop n).take size)) =
      .ok ((objects.drop n).take size) := rfl
  unfold Setup.list
  rw [startedIn_settle_bind hpage, startedIn_settle_bind hfilter, against_bind_ok (hask _),
    startedIn_settle_bind hobjects, startedIn_settle_bind hresources]
  rfl

end

/-! ## Going through a list -/

/-- What a client reads off a list: its resources, their number and the total. -/
structure Shows (message : Value) (resources : List Value) (perPage total : Int) : Prop where
  resources : message.get? "Resources" = some (.array resources)
  perPage : message.get? "itemsPerPage" = some (.int perPage)
  total : message.get? "totalResults" = some (.int total)

/-- A client that goes through a list from a start: it asks for a page and, while there are
resources behind the page, goes on with them. -/
inductive Browses (page : Int → Client → Outcome Value × Client) :
    Int → Client → List (List Value) → Prop where
  | last {start perPage total : Int} {c c' : Client} {message : Value} {resources : List Value}
    (hpage : page start c = (.ok message, c')) (hshows : Shows message resources perPage total)
    (hend : total < start + perPage) : Browses page start c [resources]
  | more {start perPage total : Int} {c c' : Client} {message : Value} {resources : List Value}
    {pages : List (List Value)} (hpage : page start c = (.ok message, c'))
    (hshows : Shows message resources perPage total) (hmore : start + perPage ≤ total)
    (hrest : Browses page (start + perPage) c' pages) : Browses page start c (resources :: pages)

section

variable {page : Int → Client → Outcome Value × Client}

theorem Shows.unique {message : Value} {resources resources' : List Value}
    {perPage perPage' total total' : Int} (h : Shows message resources perPage total)
    (h' : Shows message resources' perPage' total') :
    resources = resources' ∧ perPage = perPage' ∧ total = total' :=
  ⟨Value.array.inj (Option.some.inj (h.resources.symm.trans h'.resources)),
    Value.int.inj (Option.some.inj (h.perPage.symm.trans h'.perPage)),
    Value.int.inj (Option.some.inj (h.total.symm.trans h'.total))⟩

/-- A client receives one sequence of pages only. -/
theorem Browses.unique {start : Int} {c : Client} {pages pages' : List (List Value)}
    (h : Browses page start c pages) (h' : Browses page start c pages') : pages = pages' := by
  induction h generalizing pages' with
  | last hpage hshows hend =>
    cases h' with
    | last hpage' hshows' hend' =>
      cases hpage.symm.trans hpage'
      obtain ⟨rfl, rfl, rfl⟩ := hshows.unique hshows'
      rfl
    | more hpage' hshows' hmore' hrest' =>
      cases hpage.symm.trans hpage'
      obtain ⟨rfl, rfl, rfl⟩ := hshows.unique hshows'
      omega
  | more hpage hshows hmore hrest ih =>
    cases h' with
    | last hpage' hshows' hend' =>
      cases hpage.symm.trans hpage'
      obtain ⟨rfl, rfl, rfl⟩ := hshows.unique hshows'
      omega
    | more hpage' hshows' hmore' hrest' =>
      cases hpage.symm.trans hpage'
      obtain ⟨rfl, rfl, rfl⟩ := hshows.unique hshows'
      rw [ih hrest']

end

theorem shows_listMessage (resources : List Value) (total start : Int) :
    Shows (Paging.listMessage resources (.int total) start) resources resources.length total :=
  ⟨rfl, rfl, rfl⟩

section

variable {c : Client} {images : List Value} {size : Nat}
  {page : Int → Client → Outcome Value × Client}

/-- Where every page holds the resources in its place, the pages from a place on hold the resources
from there on. By induction on the number of resources that are left. -/
theorem exists_browses (hsize : 0 < size)
    (hpage : ∀ n : Nat, page (n + 1 : Nat) c = (.ok (Paging.listMessage
      ((images.drop n).take size) (.int images.length) (n + 1 : Nat)), c))
    {left n : Nat} (hleft : images.length - n = left) (hn : n = 0 ∨ n < images.length) :
    ∃ pages, Browses page (n + 1 : Nat) c pages ∧ pages.flatten = images.drop n ∧
      ∀ resources ∈ pages, resources.length ≤ size := by
  induction left using Nat.strong_induction_on generalizing n with
  | _ left ih =>
    have hshows := shows_listMessage ((images.drop n).take size) images.length (n + 1 : Nat)
    have hlength : ((images.drop n).take size).length = min size (images.length - n) := by
      rw [List.length_take, List.length_drop]
    by_cases hmore : n + size < images.length
    · obtain ⟨pages, hpages, hflatten, hsmall⟩ :=
        ih (images.length - (n + size)) (by omega) rfl (.inr hmore)
      have hfull : ((images.drop n).take size).length = size := by omega
      rw [hfull] at hshows
      have hnext : (n + 1 : Nat) + (size : Int) = (n + size + 1 : Nat) := by omega
      refine ⟨(images.drop n).take size :: pages, ?_, ?_, ?_⟩
      · exact .more (hpage n) hshows (by omega) (hnext ▸ hpages)
      · rw [List.flatten_cons, hflatten, ← List.drop_drop, List.take_append_drop]
      · intro resources hmem
        rcases List.mem_cons.1 hmem with rfl | hrest
        · exact hfull.le
        · exact hsmall resources hrest
    · have hall : (images.drop n).take size = images.drop n :=
        List.take_of_length_le (by rw [List.length_drop]; omega)
      refine ⟨[(images.drop n).take size], .last (hpage n) hshows (by omega), ?_, ?_⟩
      · rw [List.flatten_singleton, hall]
      · intro resources hmem
        obtain rfl := List.mem_singleton.1 hmem
        omega

end

/-- Let a backend hold the objects that meet a filter, each of which has a resource. A client that
asks for at least one resource at a time, starts with the first one, and goes on behind what it has
received while there is more comes to an end: it has received the resources of all objects, each once
and in order, and at most as many on a page as it asked for or as a page may have. -/
theorem browsing_is_exact (s : Setup) (kind : Kind) (server : Server) (caller : Caller) (c : Client)
    (query : Int → Fields Value) (text : String) (m : Int) (objects images : List Value)
    (hc : Authorized caller.token c) (hquery : AsksPages s kind query text m) (hm : 1 ≤ m)
    (hserver : Holds server (c.baseUrl ++ Objects.collectionPath (s.object kind)) (.string text)
      objects)
    (himages : List.Forall₂ (fun v image => s.resourceOf kind caller.baseUrl v = .ok image)
      objects images) :
    let page (start : Int) (c : Client) : Outcome Value × Client :=
      (startedIn (s.list kind (query start) caller) c).against server
    ∃ pages, Browses page 1 c pages ∧ (∀ other, Browses page 1 c other → other = pages) ∧
      pages.flatten = images ∧ ∀ resources ∈ pages, (resources.length : Int) ≤ min m 200 := by
  intro page
  obtain ⟨size, hsize⟩ : ∃ size : Nat, min m Paging.maxCount = size :=
    ⟨(min m Paging.maxCount).toNat, by unfold Paging.maxCount; omega⟩
  have hpos : 0 < size := by
    unfold Paging.maxCount at hsize
    omega
  have hpage : ∀ n : Nat, page (n + 1 : Nat) c = (.ok (Paging.listMessage
      ((images.drop n).take size) (.int images.length) (n + 1 : Nat)), c) := by
    intro n
    have hresources : ((objects.drop n).take size).mapM (s.resourceOf kind caller.baseUrl) =
        .ok ((images.drop n).take size) :=
      mapM_eq_ok_iff.2 (List.forall₂_take size (List.forall₂_drop n himages))
    have hlist := against_list hc hquery hserver hsize hpos n hresources
    rw [himages.length_eq] at hlist
    exact hlist
  obtain ⟨pages, hpages, hflatten, hsmall⟩ := exists_browses hpos hpage rfl (.inl rfl)
  refine ⟨pages, hpages, fun other h => h.unique hpages, hflatten, fun resources hmem => ?_⟩
  have hle := hsmall resources hmem
  unfold Paging.maxCount at hsize
  omega

/-! ## Two users, one at a time -/

/-- A user of a backend, by its identifier. -/
def userWith (id : String) : Value := .object [("_id", .string id)]

/-- The text of a page of users. -/
def pageText (ids : List String) : String :=
  "\x7b\"result\":[" ++ ",".intercalate (ids.map fun id => "\x7b\"_id\":\"" ++ id ++ "\"\x7d")
    ++ "]\x7d"

/-- A backend with two users. -/
def pairServer : Server := fun r =>
  let number (name : String) : Nat := match paramOf r.params name with
    | some (.int n) => n.toNat
    | _ => 0
  if (paramOf r.params "_countOnly").isSome then .response 200 "\x7b\"totalPagedResults\":2\x7d"
  else .response 200
    (pageText ((["a", "b"].drop (number "_pagedResultsOffset")).take (number "_pageSize")))

theorem tells_pageText {ids : List String} (h : ids ∈ [[], ["a"], ["b"], ["a", "b"]]) :
    Tells (.response 200 (pageText ids)) [("result", .array (ids.map userWith))] := by
  simp only [List.mem_cons, List.not_mem_nil, or_false] at h
  rcases h with rfl | rfl | rfl | rfl <;> exact ⟨200, _, rfl, by decide, rfl⟩

theorem holds_pairServer (url : String) (filter : Value) :
    Holds pairServer url filter (["a", "b"].map userWith) where
  total r _ hcount := by
    have hanswer : pairServer r = .response 200 "\x7b\"totalPagedResults\":2\x7d" := by
      simp [pairServer, hcount]
    exact ⟨[("totalPagedResults", .int 2)], ⟨200, _, hanswer, by decide, rfl⟩, .inl rfl⟩
  page r _ hcount offset size hoffset hsize := by
    have hanswer : pairServer r =
        .response 200 (pageText ((["a", "b"].drop offset).take size)) := by
      simp [pairServer, hcount, hoffset, hsize]
    have hids : (["a", "b"].drop offset).take size ∈ [[], ["a"], ["b"], ["a", "b"]] := by
      match offset, size with
      | 0, 0 | 0, 1 | 0, _ + 2 | 1, 0 | 1, _ + 1 | _ + 2, _ => simp
    rw [hanswer, ← List.map_drop, ← List.map_take]
    exact ⟨_, tells_pageText hids, rfl⟩

/-- A client that reads two users one at a time receives both. -/
theorem browsing_two_users :
    let page (start : Int) (c : Client) : Outcome Value × Client :=
      (startedIn (Setup.list ⟨{}, .empty⟩ .user [("startIndex", .int start), ("count", .int 1)]
        ⟨some "token", ""⟩) c).against pairServer
    ∃ pages images, Browses page 1 (.ofAddress usualAddress) pages ∧ pages.flatten = images ∧
      images.length = 2 ∧ ∀ resources ∈ pages, resources.length ≤ 1 := by
  intro page
  have himages : ∃ images, List.Forall₂ (fun v image =>
      Setup.resourceOf ⟨{}, .empty⟩ .user "" v = .ok image) [userWith "a", userWith "b"] images :=
    ⟨_, .cons rfl (.cons rfl .nil)⟩
  obtain ⟨images, himages⟩ := himages
  obtain ⟨pages, hpages, -, hflatten, hsmall⟩ := browsing_is_exact ⟨{}, .empty⟩ .user pairServer
    ⟨some "token", ""⟩ (.ofAddress usualAddress)
    (fun n => [("startIndex", .int n), ("count", .int 1)]) "true" 1 _ images
    (authorized_of_token (by decide) _)
    ⟨fun _ => rfl, fun n _ => ⟨.int n, rfl, rfl⟩, fun _ => ⟨.int 1, rfl, rfl⟩⟩ (by decide)
    (holds_pairServer _ _) himages
  refine ⟨pages, images, hpages, hflatten, himages.length_eq.symm, fun resources hmem => ?_⟩
  have hle := hsmall resources hmem
  omega

end Service

end ScimBridge
