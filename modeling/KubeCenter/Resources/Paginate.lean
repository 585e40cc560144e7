import Mathlib.Data.List.TakeWhile
import Mathlib.Data.String.Basic
import Mathlib.Tactic.NormNum
import KubeCenter.Core.GoSlice
import KubeCenter.Resources.ClusterScope

/-! The pages of a list by offset: the two copies of the algorithm, and what a client gets that follows the tokens. -/

namespace KubeCenter.Resources

open KubeCenter.Core

/-- A page and the token of the next, or an index out of the range of the slice. -/
inductive Page (α : Type)
  | page (items : List α) (nextToken : String)
  | panicked

/-- `items[start:end]`. -/
def sliceRange {α : Type} (items : List α) (start stop : ℤ) : Option (List α) :=
  if 0 ≤ start ∧ start ≤ stop ∧ stop ≤ items.length then some ((items.take stop.toNat).drop start.toNat) else none

structure ObjectMeta where
  ns : String
  name : String

/-- `namespace/name`. -/
def ObjectMeta.nsName (m : ObjectMeta) : String := if m.ns ≠ "" then m.ns ++ "/" ++ m.name else m.name

/-- The objects of a Go type: `accessor` says which of them are an `ObjectMetaAccessor`. -/
structure ObjectKind (α : Type) where
  objectMeta : α → ObjectMeta
  accessor : α → Bool

namespace ObjectKind

variable {α : Type} (k : ObjectKind α)

def objectKey (obj : α) : String := if k.accessor obj then (k.objectMeta obj).nsName else ""

def less (a b : α) : Bool := k.objectKey a < k.objectKey b

variable (slice : SliceSort k.less) (items : List α) (limit : ℕ) (continueToken : String)

/-- `start` is below the length when `limit` is added to it. -/
def paginateAny : Page α :=
  let items := slice.sort items
  let start := pageStart continueToken
  if items.length ≤ start then .page [] ""
  else
    let stop := min (start + limit) items.length
    match sliceRange items start stop with
    | some page => .page page (if stop < items.length then toString stop else "")
    | none => .panicked

/-- The same for a slice of pointers of one type. -/
def paginate : Page α :=
  let items := slice.sort items
  let start := pageStart continueToken
  if items.length ≤ start then .page [] ""
  else
    let stop := min (start + limit) items.length
    match sliceRange items start stop with
    | some page => .page page (if stop < items.length then toString stop else "")
    | none => .panicked

/-- The sort key orders the objects as their namespace and name do. -/
def OrdersAsNamed : Prop :=
  items.Pairwise fun a b ↦
    (k.objectKey a ≤ k.objectKey b → (k.objectMeta a).nsName ≤ (k.objectMeta b).nsName) ∧
      (k.objectKey b ≤ k.objectKey a → (k.objectMeta b).nsName ≤ (k.objectMeta a).nsName)

end ObjectKind

/-- The pages a client gets that follows the tokens, from one on until none is returned. -/
inductive Follows {α : Type} (fetch : String → Page α) : String → List (List α) → Prop
  | last {token : String} {items : List α} : fetch token = .page items "" → Follows fetch token [items]
  | next {token token' : String} {items : List α} {pages : List (List α)} :
      fetch token = .page items token' → token' ≠ "" → Follows fetch token' pages →
      Follows fetch token (items :: pages)

/-- A list as long as an address space can hold. -/
structure Listing (α : Type) where
  items : List α
  length_lt : items.length < 2 ^ 60

/-- What paging promises for a list and a request. -/
structure SafePaging {α : Type} (k : ObjectKind α) (listing : Listing α) (req : Request) : Prop where
  lossless : ∀ slice : SliceSort k.less, ∃ pages,
    Follows (k.paginateAny slice listing.items (listLimit req)) "" pages ∧ pages.flatten.Perm listing.items ∧
      pages.flatten.Pairwise fun a b ↦ (k.objectMeta a).nsName ≤ (k.objectMeta b).nsName
  agree : ∀ (slice : SliceSort k.less) (limit : ℕ) (token : String),
    k.paginate slice listing.items limit token = k.paginateAny slice listing.items limit token
  inRange : ∀ slice : SliceSort k.less, k.paginate slice listing.items (listLimit req) req.token ≠ .panicked ∧
    k.paginateAny slice listing.items (listLimit req) req.token ≠ .panicked

/-- The tokens lead to one list of pages. -/
theorem Follows.unique {α : Type} {fetch : String → Page α} {token : String} {pages pages' : List (List α)}
    (h : Follows fetch token pages) (h' : Follows fetch token pages') : pages = pages' := by
  induction h generalizing pages' with
  | last hfetch =>
    cases h' with
    | last hfetch' =>
      cases hfetch.symm.trans hfetch'
      rfl
    | next hfetch' hne' _ =>
      cases hfetch.symm.trans hfetch'
      exact absurd rfl hne'
  | next hfetch hne _ ih =>
    cases h' with
    | last hfetch' =>
      cases hfetch.symm.trans hfetch'
      exact absurd rfl hne
    | next hfetch' _ hrest' =>
      cases hfetch.symm.trans hfetch'
      rw [ih hrest']

theorem listLimit_range (req : Request) : 0 < listLimit req ∧ listLimit req ≤ 500 := by
  unfold listLimit
  dsimp only
  split_ifs <;> omega

/-! The token of an offset is read as that offset. -/

theorem toDigits_bytes {n fuel : ℕ} (h : n < fuel) :
    (Nat.toDigits 10 n).map (fun c ↦ UInt8.ofNat c.toNat) = decimalDigits fuel n := by
  induction fuel generalizing n with
  | zero => omega
  | succ fuel ih =>
    rw [Nat.toDigits_eq_if (by norm_num), decimalDigits]
    split
    · next hlt =>
      rw [List.map_singleton, Nat.toNat_digitChar_of_lt_ten hlt, Nat.mod_eq_of_lt hlt, List.nil_append]
    · have hlast : n % 10 < 10 := Nat.mod_lt n (by norm_num)
      rw [List.map_append, List.map_singleton, Nat.toNat_digitChar_of_lt_ten hlast, ih (by omega)]

theorem isDigit_toDigits {n : ℕ} {c : Char} (h : c ∈ Nat.toDigits 10 n) : c.isDigit :=
  Nat.isDigit_of_mem_toDigits (by norm_num) (by norm_num) h

theorem isSpace_of_isDigit {c : Char} (h : c.isDigit) : isSpace c = false := by
  have hrange := h
  simp only [Char.isDigit, ge_iff_le, Bool.and_eq_true, decide_eq_true_eq] at hrange
  have hlow : 48 ≤ c.toNat := hrange.1
  have hhigh : c.toNat ≤ 57 := hrange.2
  refine Bool.eq_false_iff.mpr fun hspace ↦ ?_
  simp only [isSpace, List.mem_cons, List.not_mem_nil, or_false, Bool.or_eq_true, decide_eq_true_eq] at hspace
  rcases hspace with (rfl | rfl | rfl | rfl | rfl | rfl | rfl | rfl | rfl | rfl | rfl | rfl | rfl | rfl) | hspace
  all_goals first | omega | exact absurd h (by decide)

theorem scanStart_toString {n : ℕ} (h : n < 2 ^ 63) : scanStart (toString n) = n := by
  have hlist : (toString n).toList = Nat.toDigits 10 n := Nat.toList_repr
  have hhead : ∀ c ∈ (Nat.toDigits 10 n).head?, c.isDigit := fun c hc ↦ isDigit_toDigits (List.mem_of_mem_head? hc)
  have hblank : (Nat.toDigits 10 n).dropWhile (fun c ↦ isSpace c && c ≠ '\n') = Nat.toDigits 10 n := by
    refine List.dropWhile_eq_self_iff.mpr fun hl ↦ ?_
    rw [isSpace_of_isDigit (isDigit_toDigits (List.getElem_mem hl))]
    exact Bool.false_ne_true
  have hminus : (Nat.toDigits 10 n).head? ≠ some '-' := fun hc ↦ absurd (hhead _ hc) (by decide)
  have hplus : (Nat.toDigits 10 n).head? ≠ some '+' := fun hc ↦ absurd (hhead _ hc) (by decide)
  have htake : (Nat.toDigits 10 n).takeWhile Char.isDigit = Nat.toDigits 10 n :=
    List.takeWhile_eq_self_iff.mpr fun _ ↦ isDigit_toDigits
  unfold scanStart
  simp only [hlist, hblank, hminus, hplus, htake, if_false, toDigits_bytes (Nat.lt_succ_self n)]
  rw [← decimal, parseUint_decimal]
  exact if_pos h

theorem pageStart_toString {n : ℕ} (h : n < 2 ^ 63) : pageStart (toString n) = n := by
  have hne : toString n ≠ "" := Nat.repr_ne_empty
  unfold pageStart
  rw [if_neg hne, scanStart_toString h]

namespace ObjectKind

variable {α : Type} {k : ObjectKind α} {slice : SliceSort k.less} {items : List α} {limit : ℕ} {token : String}

theorem paginate_eq : k.paginate slice items limit token = k.paginateAny slice items limit token := rfl

theorem length_sort (slice : SliceSort k.less) : (slice.sort items).length = items.length := (slice.perm items).length_eq

theorem paginateAny_of_lt {start : ℕ} (htoken : pageStart token = start) (h : start < items.length) :
    k.paginateAny slice items limit token =
      .page (((slice.sort items).take (min (start + limit) items.length)).drop start)
        (if start + limit < items.length then toString (start + limit) else "") := by
  unfold paginateAny
  have hrange : sliceRange (slice.sort items) start (min (start + limit) items.length : ℕ) =
      some (((slice.sort items).take (min (start + limit) items.length)).drop start) := by
    unfold sliceRange
    rw [if_pos (by rw [length_sort]; omega), Int.toNat_natCast, Int.toNat_natCast]
  have hstop : min ((start : ℤ) + limit) items.length = (min (start + limit) items.length : ℕ) := by omega
  dsimp only
  rw [htoken, length_sort slice, if_neg (by omega), hstop, hrange]
  by_cases hlast : start + limit < items.length
  · rw [if_pos hlast, min_eq_left hlast.le, if_pos (by omega)]
    rfl
  · rw [if_neg hlast, min_eq_right (not_lt.mp hlast), if_neg (by omega)]

theorem paginateAny_of_le (h : items.length ≤ pageStart token) :
    k.paginateAny slice items limit token = .page [] "" := by
  unfold paginateAny
  dsimp only
  rw [length_sort, if_pos h]

theorem paginateAny_of_neg (h : pageStart token < 0) : k.paginateAny slice items limit token = .panicked := by
  unfold paginateAny sliceRange
  dsimp only
  rw [if_neg (by omega), if_neg (by omega)]

theorem paginateAny_ne_panicked : k.paginateAny slice items limit token ≠ .panicked ↔ 0 ≤ pageStart token := by
  constructor
  · intro h
    by_contra hneg
    exact h (paginateAny_of_neg (by omega))
  · intro h
    by_cases hlt : pageStart token < items.length
    · obtain ⟨start, hstart⟩ := Int.eq_ofNat_of_zero_le h
      rw [paginateAny_of_lt hstart (by omega)]
      exact nofun
    · rw [paginateAny_of_le (by omega)]
      exact nofun

/-- What follows from an offset on is what the sorted list has from there on. -/
theorem follows_drop (hlength : items.length < 2 ^ 60) (hlimit : 0 < limit) {start : ℕ} (htoken : pageStart token = start)
    (h : start < items.length) :
    ∃ pages, Follows (k.paginateAny slice items limit) token pages ∧ pages.flatten = (slice.sort items).drop start := by
  induction hrest : items.length - start using Nat.strongRecOn generalizing start token with
  | ind rest ih =>
    have hpage : k.paginateAny slice items limit token = _ := paginateAny_of_lt htoken h
    by_cases hlast : start + limit < items.length
    · rw [if_pos hlast, min_eq_left hlast.le] at hpage
      have hnext := pageStart_toString (n := start + limit) (by omega)
      obtain ⟨pages, hfollows, hflatten⟩ := ih (items.length - (start + limit)) (by omega) hnext hlast rfl
      refine ⟨_, .next hpage Nat.repr_ne_empty hfollows, ?_⟩
      have hsub : start + limit - start = limit := by omega
      rw [List.flatten_cons, hflatten, List.drop_take, hsub, ← List.drop_drop]
      exact List.take_append_drop _ _
    · rw [if_neg hlast, min_eq_right (not_lt.mp hlast), ← length_sort slice, List.take_length] at hpage
      exact ⟨_, .last hpage, List.flatten_singleton⟩

theorem follows_sort (slice : SliceSort k.less) (hlength : items.length < 2 ^ 60) (hlimit : 0 < limit) :
    ∃ pages, Follows (k.paginateAny slice items limit) "" pages ∧ pages.flatten = slice.sort items := by
  have hstart : pageStart "" = 0 := if_pos rfl
  rcases Nat.eq_zero_or_pos items.length with hzero | hpos
  · have hnil : slice.sort items = [] := List.length_eq_zero_iff.mp ((length_sort slice).trans hzero)
    refine ⟨[[]], .last (paginateAny_of_le (by omega)), ?_⟩
    rw [hnil]
    rfl
  · exact follows_drop hlength hlimit hstart hpos

/-! The order of the pages. -/

theorem objectKey_le_of_not_less {a b : α} (h : k.less b a = false) : k.objectKey a ≤ k.objectKey b :=
  not_lt.mp (of_decide_eq_false h)

/-- An insertion sort of the list as it is arranged first. -/
def insertionSlice (k : ObjectKind α) (arrange : List α → List α) (harrange : ∀ l, (arrange l).Perm l) :
    SliceSort k.less where
  sort l := (arrange l).insertionSort fun a b ↦ k.objectKey a ≤ k.objectKey b
  perm l := (List.perm_insertionSort _ _).trans (harrange l)
  sorted l := by
    have : Std.Total (fun a b ↦ k.objectKey a ≤ k.objectKey b) := ⟨fun a b ↦ le_total (k.objectKey a) (k.objectKey b)⟩
    have : IsTrans α (fun a b ↦ k.objectKey a ≤ k.objectKey b) := ⟨fun _ _ _ ↦ le_trans⟩
    exact (List.pairwise_insertionSort _ _).imp fun hle ↦ decide_eq_false (not_lt.mpr hle)

theorem sublist_insertionSlice {arrange : List α → List α} {harrange : ∀ l, (arrange l).Perm l} {a b : α}
    (hle : k.objectKey a ≤ k.objectKey b) (h : [a, b].Sublist (arrange items)) :
    [a, b].Sublist ((k.insertionSlice arrange harrange).sort items) :=
  List.pair_sublist_insertionSort hle h

/-- Every outcome of the sort is in the order of the names when the keys are. -/
theorem pairwise_sort (h : k.OrdersAsNamed items) :
    (slice.sort items).Pairwise fun a b ↦ (k.objectMeta a).nsName ≤ (k.objectMeta b).nsName := by
  have hpairs := (slice.sorted items).and ((slice.perm items).symm.pairwise h fun hab ↦ hab.symm)
  exact hpairs.imp fun hab ↦ hab.2.1 (objectKey_le_of_not_less hab.1)

/-- An order of the names that no outcome of the sort breaks is the order of the keys. -/
theorem ordersAsNamed (h : ∀ slice : SliceSort k.less,
    (slice.sort items).Pairwise fun a b ↦ (k.objectMeta a).nsName ≤ (k.objectMeta b).nsName) :
    k.OrdersAsNamed items := by
  refine List.pairwise_iff_forall_sublist.mpr fun {a b} hab ↦ ⟨fun hle ↦ ?_, fun hle ↦ ?_⟩
  · have hsorted := h (k.insertionSlice id List.Perm.refl)
    exact List.pairwise_iff_forall_sublist.mp hsorted (sublist_insertionSlice hle hab)
  · have hsorted := h (k.insertionSlice List.reverse List.reverse_perm)
    exact List.pairwise_iff_forall_sublist.mp hsorted (sublist_insertionSlice hle (List.reverse_sublist.mpr hab))

theorem ordersAsNamed_of_accessor (h : ∀ obj ∈ items, k.accessor obj) : k.OrdersAsNamed items := by
  refine List.pairwise_of_forall_mem_list fun a ha b hb ↦ ?_
  unfold objectKey
  rw [h a ha, h b hb]
  exact ⟨id, id⟩

/-- Where no two objects share a key, the order in which they come decides nothing. -/
theorem sort_eq_sort {slice' : SliceSort k.less} {items' : List α} (hperm : items'.Perm items)
    (h : items.Pairwise fun a b ↦ k.objectKey a ≠ k.objectKey b) : slice'.sort items' = slice.sort items := by
  have hstrict : ∀ (s : SliceSort k.less) (l : List α), l.Perm items →
      (s.sort l).Pairwise fun a b ↦ k.objectKey a < k.objectKey b := by
    intro s l hl
    have hdistinct := ((s.perm l).trans hl).symm.pairwise h fun hab ↦ hab.symm
    exact ((s.sorted l).and hdistinct).imp fun hab ↦ lt_of_le_of_ne (objectKey_le_of_not_less hab.1) hab.2
  have hsame : (slice'.sort items').Perm (slice.sort items) :=
    (slice'.perm items').trans (hperm.trans (slice.perm items).symm)
  exact hsame.eq_of_pairwise (fun _ _ _ _ hab hba ↦ absurd hab hba.not_gt) (hstrict _ _ hperm) (hstrict _ _ (.refl _))

theorem paginateAny_perm {slice' : SliceSort k.less} {items' : List α} (hperm : items'.Perm items)
    (h : items.Pairwise fun a b ↦ k.objectKey a ≠ k.objectKey b) :
    k.paginateAny slice' items' limit token = k.paginateAny slice items limit token := by
  unfold paginateAny
  rw [sort_eq_sort hperm h]

/-- The objects that the adapters list. -/
def listed : ObjectKind Json where
  objectMeta obj := ⟨objectNamespace obj, objectName obj⟩
  accessor _ := true

end ObjectKind

def writeList (total : ℕ) : Page Json → Response
  | .page items nextToken => .list items total nextToken
  | .panicked => .panicked

/-- The answer of a list request is the page. -/
theorem paginateAny_listed (items : List Json) (limit : ℕ) (token : String) :
    paginateAny items limit token =
      writeList items.length (ObjectKind.listed.paginateAny (ObjectKind.listed.insertionSlice id List.Perm.refl)
        items limit token) := by
  by_cases hneg : pageStart token < 0
  · rw [paginateAny_panicked hneg, ObjectKind.paginateAny_of_neg hneg]
    rfl
  · obtain ⟨start, hstart⟩ := Int.eq_ofNat_of_zero_le (not_lt.mp hneg)
    unfold paginateAny
    dsimp only
    rw [List.length_insertionSort, hstart, if_neg (not_lt.mpr (Int.natCast_nonneg start)), Int.toNat_natCast]
    by_cases hlt : start < items.length
    · rw [ObjectKind.paginateAny_of_lt hstart hlt, if_neg (by omega)]
      by_cases hlast : start + limit < items.length
      · rw [min_eq_left hlast.le]
        rfl
      · rw [min_eq_right (not_lt.mp hlast), if_neg (lt_irrefl _), if_neg hlast]
        rfl
    · rw [ObjectKind.paginateAny_of_le (by omega), if_pos (by omega)]
      rfl

open ObjectKind

/-- Paging is lossless and safe exactly where the token is not read as a negative number and the sort key orders
the objects as their namespace and name do. -/
theorem safePaging_iff {α : Type} (k : ObjectKind α) (listing : Listing α) (req : Request) :
    SafePaging k listing req ↔ 0 ≤ pageStart req.token ∧ k.OrdersAsNamed listing.items := by
  have hlimit := (listLimit_range req).1
  constructor
  · intro h
    refine ⟨paginateAny_ne_panicked.mp (h.inRange (k.insertionSlice id List.Perm.refl)).2, ordersAsNamed fun slice ↦ ?_⟩
    obtain ⟨pages, hfollows, -, hsorted⟩ := h.lossless slice
    obtain ⟨pages', hfollows', hflatten⟩ := follows_sort slice listing.length_lt hlimit
    rwa [hfollows.unique hfollows', hflatten] at hsorted
  · rintro ⟨htoken, hnamed⟩
    refine ⟨fun slice ↦ ?_, fun _ _ _ ↦ paginate_eq, fun slice ↦ ?_⟩
    · obtain ⟨pages, hfollows, hflatten⟩ := follows_sort slice listing.length_lt hlimit
      refine ⟨pages, hfollows, ?_, ?_⟩
      · rw [hflatten]
        exact slice.perm _
      · rw [hflatten]
        exact pairwise_sort hnamed
    · rw [paginate_eq]
      exact ⟨paginateAny_ne_panicked.mpr htoken, paginateAny_ne_panicked.mpr htoken⟩

/-- A list of one Pod. -/
def onePod : Listing ObjectMeta where
  items := [⟨"shop", "web"⟩]
  length_lt := by norm_num

/-- The token `-1` is an index in front of the list. -/
theorem not_safePaging : ¬ ∀ (k : ObjectKind ObjectMeta) (listing : Listing ObjectMeta) (req : Request),
    SafePaging k listing req := by
  intro h
  let pods : ObjectKind ObjectMeta := ⟨id, fun _ ↦ true⟩
  have hpaging := h pods onePod { clusterID := "local", kind := "pods", token := "-1" }
  exact (hpaging.inRange (pods.insertionSlice id List.Perm.refl)).2 (paginateAny_of_neg (by decide))

end KubeCenter.Resources
