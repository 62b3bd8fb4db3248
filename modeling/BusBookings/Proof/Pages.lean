import BusBookings.Base.Paging
import BusBookings.Proof.Runs

/-!
# The pages of `list_active`

Every page is a query of its own, ordered by `departure_at` only; PostgreSQL may order routes of one
departure differently in each. The pages show every route once, whatever it does, exactly if no page
ends between two routes of one departure (`pagesOf_iff`).
-/

namespace BusBookings

open Async ReadCommitted

/-- A world with the database `db` and nothing else. -/
def World.quiet (db : Db) : World := ⟨.init db, 1, 1, 1, 1, ∅, []⟩

/-- What `list_active` returns on the database `db`. -/
def listActive (server : Server) (db : Db) (f : RouteFilter) (page size : Int) :
    Option (List Route × Int) :=
  ((getDb (RouteRepository.listActive f page size)).run.run (exec server .ok 0) (.quiet db)).bind fun p =>
    p.1.toOption

/-- The active routes that a filter accepts. -/
def matching (fold : Char → Char) (db : Db) (f : RouteFilter) : List Route :=
  db.routes.rows.filter (f.accepts fold)

/-- `ceil(total / size)`. -/
def pageCount (total size : Nat) : Nat := (total + size - 1) / size

/-- The routes on the pages from 1 to the last one. -/
def pagesOf (server : Server) (db : Db) (f : RouteFilter) (size : Nat) : List (List Route) :=
  (List.range (pageCount (matching server.fold db f).length size)).map fun k : Nat =>
    ((listActive server db f (k + 1) size).map Prod.fst).getD []

/-- The pages show each route once and in order, all but the last are full, and the total is right. -/
structure Enumerates (server : Server) (db : Db) (f : RouteFilter) (size : Nat) : Prop where
  total : ∀ page, (listActive server db f page size).map Prod.snd =
    some ((matching server.fold db f).length : Int)
  once : (pagesOf server db f size).flatten.Perm (matching server.fold db f)
  sorted : (pagesOf server db f size).flatten.Pairwise fun r r' => r.departureAt.rank ≤ r'.departureAt.rank
  full : ∀ k l, (pagesOf server db f size)[k]? = some l → k + 1 < (pagesOf server db f size).length →
    l.length = size

section

variable {server : Server} {fold : Char → Char} {db : Db} {f : RouteFilter} {size total k : Nat}

theorem listActive_eq (page size : Int) : listActive server db f page size =
    some (World.routesOf server db f ((page - 1) * size) size,
      ((db.routes.rows.countP (f.accepts server.fold) : Nat) : Int)) := rfl

theorem nodup_matching : (matching fold db f).Nodup := (List.Nodup.of_map _ db.routes.nodup).filter _

theorem pagesOf_eq : pagesOf server db f size =
    Paging.pages size (pageCount (matching server.fold db f).length size)
      fun k => server.order f (k * size : Nat) size (matching server.fold db f) := by
  unfold pagesOf Paging.pages
  apply List.map_congr_left
  intro k _
  have hoffset : ((k : Int) + 1 - 1) * size = (k * size : Nat) := by
    rw [Int.add_sub_cancel]
    exact (Int.natCast_mul k size).symm
  rw [listActive_eq, hoffset]
  rfl

theorem le_pageCount (hs : 0 < size) : total ≤ pageCount total size * size := by
  have hdiv := Nat.div_add_mod (total + size - 1) size
  have hmod := Nat.mod_lt (total + size - 1) hs
  unfold pageCount
  rw [Nat.mul_comm]
  omega

theorem lt_pageCount (hs : 0 < size) : k < pageCount total size ↔ k * size < total := by
  unfold pageCount
  rw [Nat.lt_div_iff_mul_lt hs]
  omega

/-- All but the last page are full. -/
theorem pagesOf_full (hs : 0 < size) {l : List Route} (hk : (pagesOf server db f size)[k]? = some l)
    (hlast : k + 1 < (pagesOf server db f size).length) : l.length = size := by
  rw [pagesOf_eq] at hk hlast
  simp only [Paging.pages, List.length_map, List.length_range, List.getElem?_map,
    Option.map_eq_some_iff] at hk hlast
  obtain ⟨k', hk', rfl⟩ := hk
  obtain ⟨-, rfl⟩ := List.getElem?_eq_some_iff.1 hk'
  rw [lt_pageCount hs, Nat.succ_mul] at hlast
  rw [Paging.length_page, (server.order_perm _ _ _ _).length_eq]
  simp only [List.getElem_range]
  omega

/-- Where no page ends between routes of one departure, the pages show each route once. -/
theorem enumerates_of_cut (hs : 0 < size)
    (hcut : ∀ k, Paging.Cut (fun r : Route => r.departureAt.rank) (matching server.fold db f) (k * size)) :
    Enumerates server db f size := by
  have hsorted (o l : Int) : Paging.Ordered (fun r : Route => r.departureAt.rank)
      (server.order f o l (matching server.fold db f)) := server.order_sorted _ _ _ _
  have hperm (o o' l l' : Int) : (server.order f o l (matching server.fold db f)).Perm
      (server.order f o' l' (matching server.fold db f)) :=
    (server.order_perm _ _ _ _).trans (server.order_perm _ _ _ _).symm
  have hcut' (k : Nat) := (hcut k).perm (server.order_perm f 0 0 (matching server.fold db f))
  have hlength : (server.order f 0 0 (matching server.fold db f)).length ≤
      pageCount (matching server.fold db f).length size * size := by
    rw [(server.order_perm _ _ _ _).length_eq]
    exact le_pageCount hs
  refine ⟨fun page => ?_, ?_, ?_, fun k l hk hlast => pagesOf_full hs hk hlast⟩
  · rw [listActive_eq, matching, ← List.countP_eq_length_filter]
    rfl
  · rw [pagesOf_eq]
    have hpages := Paging.pages_perm (hsorted 0 0) (fun k => hsorted (k * size : Nat) size)
      (fun k => hperm _ _ _ _) hcut' (pageCount (matching server.fold db f).length size)
    rw [List.take_of_length_le hlength] at hpages
    exact hpages.trans (server.order_perm _ _ _ _)
  · rw [pagesOf_eq]
    exact Paging.pages_sorted (hsorted 0 0) (fun k => hsorted (k * size : Nat) size)
      (fun k => hperm _ _ _ _) hcut' _

/-- A route on two consecutive pages is shown twice. -/
theorem not_enumerates_of_twice (hs : 0 < size) {r : Route}
    (hlast : (k + 1) * size < (matching server.fold db f).length)
    (hr : r ∈ Paging.page size k (server.order f (k * size : Nat) size (matching server.fold db f)))
    (hr' : r ∈ Paging.page size (k + 1)
      (server.order f ((k + 1) * size : Nat) size (matching server.fold db f))) :
    ¬ Enumerates server db f size := by
  intro h
  have hnodup : (pagesOf server db f size).flatten.Nodup := h.once.nodup_iff.2 nodup_matching
  rw [pagesOf_eq] at hnodup
  exact Paging.not_nodup_of_twice
    (L := fun k => server.order f (k * size : Nat) size (matching server.fold db f))
    ((lt_pageCount hs).2 hlast) hr hr' hnodup

/-- The server that orders the rows `l` of the queries with offset `o` as `l'`. -/
def Server.arrange (server : Server) (o : Int) (l l' : List Route) (hp : l'.Perm l)
    (hl' : l'.Pairwise fun r r' => r.departureAt.rank ≤ r'.departureAt.rank) : Server :=
  { server with
    order := fun f o' limit rs => if o' = o ∧ rs = l then l' else server.order f o' limit rs
    order_perm := fun f o' limit rs => by
      split
      · rename_i h
        exact h.2 ▸ hp
      · exact server.order_perm f o' limit rs
    order_sorted := fun f o' limit rs => by
      split
      · exact hl'
      · exact server.order_sorted f o' limit rs }

/-- The pages enumerate the matching routes, however the database orders routes of one departure,
exactly if no page ends between routes of one departure. -/
theorem pagesOf_iff (server : Server) (hs : 0 < size) :
    (∀ server' : Server, server'.fold = server.fold → Enumerates server' db f size) ↔
      ∀ k, Paging.Cut (fun r : Route => r.departureAt.rank) (matching server.fold db f) (k * size) := by
  constructor
  · intro h k
    by_contra hcut
    cases k with
    | zero => exact hcut fun _ _ => .inl (by simp)
    | succ k =>
      have hperm := server.order_perm f (k * size : Nat) size (matching server.fold db f)
      obtain ⟨r, l', hl', hsorted, hr, hr'⟩ := Paging.exists_twice
        (server.order_sorted f (k * size : Nat) size (matching server.fold db f)) hs
        fun h => hcut (h.perm hperm.symm)
      have hlast : (k + 1) * size < (matching server.fold db f).length := by
        have hpos := List.length_pos_of_mem hr'
        rw [Paging.length_page, hl'.length_eq, hperm.length_eq] at hpos
        omega
      refine absurd (h (server.arrange ((k + 1) * size : Nat) _ l' (hl'.trans hperm) hsorted) rfl)
        (not_enumerates_of_twice hs hlast (r := r) ?_ ?_)
      · have hne : ((k * size : Nat) : Int) ≠ ((k + 1) * size : Nat) := by
          rw [Nat.succ_mul]
          omega
        unfold Server.arrange
        simp only [hne, false_and, if_false]
        exact hr
      · unfold Server.arrange
        simp only [true_and, if_true]
        exact hr'
  · intro hcut server' hfold
    exact enumerates_of_cut hs (hfold ▸ hcut)

end

/-- The routes 1 and 2, departing on one day or on two. -/
def routesOn (day : Nat) : List Route :=
  [{ someRoute with id := 1 }, { someRoute with id := 2, departureAt := { year := 2030, month := 6, day } }]

def dbOf (routes : List Route) (h : (routes.map (·.id)).Nodup) : Db := ⟨.empty, ⟨routes, h⟩, .empty, .empty⟩

/-- Routes of two days, one on a page. -/
theorem pagesOf_iff_twoDays :
    Enumerates plainServer (dbOf (routesOn 2) (by decide)) ⟨none, none⟩ 1 := by
  refine (pagesOf_iff plainServer (by decide)).2 (fun k => ?_) plainServer rfl
  rcases Nat.lt_or_ge k 2 with hk | hk
  · obtain rfl | rfl : k = 0 ∨ k = 1 := by omega
    · decide +kernel
    · decide +kernel
  · intro r _
    refine .inr (List.countP_le_length.trans ?_)
    exact (List.length_filter_le _ _).trans (by simpa [dbOf, routesOn] using hk)

/-- Routes of one day, one on a page: both pages show route 1. -/
theorem pagesOf_repeats : ∃ server : Server,
    (pagesOf server (dbOf (routesOn 1) (by decide)) ⟨none, none⟩ 1).map (fun l => l.map (·.id)) =
      [[1], [1]] ∧
    ¬ Enumerates server (dbOf (routesOn 1) (by decide)) ⟨none, none⟩ 1 := by
  have hpages : (pagesOf
      (plainServer.arrange 1 (routesOn 1) (routesOn 1).reverse (List.reverse_perm _) (by decide))
      (dbOf (routesOn 1) (by decide)) ⟨none, none⟩ 1).map (fun l => l.map (·.id)) = [[1], [1]] := by
    decide +kernel
  refine ⟨_, hpages, fun h => ?_⟩
  have hnodup := (h.once.map (·.id)).nodup_iff.2 ((List.filter_sublist.map _).nodup (by decide))
  rw [List.map_flatten, hpages] at hnodup
  exact absurd hnodup (by decide)

end BusBookings
