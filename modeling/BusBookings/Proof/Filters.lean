import BusBookings.Proof.Pages

/-!
# The filters of `list_active`

The caller's text stands in an `ILIKE` pattern as it is. A text without `%`, `_` and `\` is searched
for literally (`ilike_plain`); for any other one `shortest` is a text that the pattern matches and
that does not contain it.
-/

namespace BusBookings

/-- No character of the text means something in a pattern. -/
def PlainText (text : List Char) : Prop := ∀ c ∈ text, c ≠ '%' ∧ c ≠ '_' ∧ c ≠ '\\'

instance (text : List Char) : Decidable (PlainText text) := List.decidableBAll _ text

/-- A shortest text that contains the text `p` as a pattern. -/
def shortest : List Char → List Char
  | [] => []
  | '%' :: p => shortest p
  | '_' :: p => '%' :: shortest p
  | ['\\'] => ['%']
  | '\\' :: c :: p => c :: shortest p
  | c :: p => c :: shortest p

/-- A text is empty, or begins with `%`, with `_`, with an escape or with a plain character, or is a
single `\`. -/
@[elab_as_elim]
theorem text_ind {motive : List Char → Prop} (nil : motive []) (percent : ∀ p, motive p → motive ('%' :: p))
    (underscore : ∀ p, motive p → motive ('_' :: p)) (last : motive ['\\'])
    (escape : ∀ c p, motive p → motive ('\\' :: c :: p))
    (plain : ∀ c p, c ≠ '%' → c ≠ '_' → c ≠ '\\' → motive p → motive (c :: p)) (p : List Char) :
    motive p := by
  induction p using shortest.induct with
  | case1 => exact nil
  | case2 p ih => exact percent p ih
  | case3 p ih => exact underscore p ih
  | case4 => exact last
  | case5 c p ih => exact escape c p ih
  | case6 c p hpercent hunderscore hlast hescape ih =>
    refine plain c p hpercent hunderscore (fun he => ?_) ih
    cases p with
    | nil => exact hlast he rfl
    | cons c' p => exact hescape c' p he rfl

theorem shortest_cons {c : Char} {p : List Char} (hpercent : c ≠ '%') (hunderscore : c ≠ '_')
    (hescape : c ≠ '\\') :
    shortest (c :: p) = c :: shortest p := by
  rw [shortest]
  all_goals simp_all

section

variable {fold : Char → Char} {p s : List Char}

theorem ilike_cons {c x : Char} (hpercent : c ≠ '%') (hunderscore : c ≠ '_') (hescape : c ≠ '\\') :
    ilike fold (c :: p) (x :: s) = (fold x == fold c && ilike fold p s) := by
  rw [ilike]
  all_goals simp_all

theorem ilike_cons_nil {c : Char} (hpercent : c ≠ '%') : ilike fold (c :: p) [] = false := by
  by_cases hunderscore : c = '_'
  · subst hunderscore
    rfl
  · by_cases hescape : c = '\\'
    · subst hescape
      cases p with
      | nil => rfl
      | cons c p => rfl
    · rw [ilike]
      all_goals simp_all

theorem ilike_percent : ilike fold ('%' :: p) s = true ↔ ∃ t, t <:+ s ∧ ilike fold p t = true := by
  rw [ilike, List.any_eq_true]
  simp only [List.mem_tails]

/-! ## The shortest text -/

/-- The pattern of a text matches its shortest text. -/
theorem ilike_shortest (p : List Char) : ilike fold (p ++ ['%']) (shortest p) = true := by
  induction p using text_ind with
  | nil => simp [shortest, ilike]
  | percent p ih => exact ilike_percent.2 ⟨_, List.suffix_rfl, by rwa [shortest]⟩
  | underscore p ih => simpa [shortest, ilike] using ih
  | last => simp [shortest, ilike]
  | escape c p ih => simpa [shortest, ilike] using ih
  | plain c p hpercent hunderscore hescape ih =>
    rw [shortest_cons hpercent hunderscore hescape, List.cons_append,
      ilike_cons hpercent hunderscore hescape, ih]
    simp

theorem length_shortest_le (p : List Char) : (shortest p).length ≤ p.length := by
  induction p using text_ind with
  | nil => exact Nat.le_refl _
  | percent p ih => exact Nat.le_succ_of_le ih
  | underscore p ih => exact Nat.succ_le_succ ih
  | last => exact Nat.le_refl _
  | escape c p ih => exact Nat.le_succ_of_le (Nat.succ_le_succ ih)
  | plain c p hpercent hunderscore hescape ih =>
    rw [shortest_cons hpercent hunderscore hescape]
    exact Nat.succ_le_succ ih

/-- No shorter text is matched. -/
theorem length_of_ilike (p : List Char) (h : ilike fold (p ++ ['%']) s = true) :
    (shortest p).length ≤ s.length := by
  induction p using text_ind generalizing s with
  | nil => exact Nat.zero_le _
  | percent p ih =>
    obtain ⟨t, ht, h⟩ := ilike_percent.1 h
    exact (ih h).trans ht.length_le
  | underscore p ih =>
    cases s with
    | nil => cases h
    | cons x s => exact Nat.succ_le_succ (ih h)
  | last =>
    cases s with
    | nil => cases h
    | cons x s => exact Nat.succ_le_succ (Nat.zero_le _)
  | escape c p ih =>
    cases s with
    | nil => cases h
    | cons x s =>
      simp only [List.cons_append, ilike, Bool.and_eq_true] at h
      exact Nat.succ_le_succ (ih h.2)
  | plain c p hpercent hunderscore hescape ih =>
    rw [shortest_cons hpercent hunderscore hescape]
    cases s with
    | nil =>
      rw [List.cons_append, ilike_cons_nil hpercent] at h
      cases h
    | cons x s =>
      rw [List.cons_append, ilike_cons hpercent hunderscore hescape, Bool.and_eq_true] at h
      exact Nat.succ_le_succ (ih h.2)

/-- Only a plain text is its own shortest text. -/
theorem plainText_of_shortest (hunderscore' : fold '%' ≠ fold '_') (hescape' : fold '%' ≠ fold '\\')
    (h : (shortest p).map fold = p.map fold) : PlainText p := by
  induction p using text_ind with
  | nil => exact fun c hc => by cases hc
  | percent p ih =>
    have hlen := congrArg List.length h
    have := length_shortest_le p
    simp only [shortest, List.map_cons, List.length_map, List.length_cons] at hlen
    omega
  | underscore p ih =>
    simp only [shortest, List.map_cons, List.cons.injEq] at h
    exact absurd h.1 hunderscore'
  | last =>
    simp only [shortest, List.map_cons, List.cons.injEq] at h
    exact absurd h.1 hescape'
  | escape c p ih =>
    have hlen := congrArg List.length h
    have := length_shortest_le p
    simp only [shortest, List.map_cons, List.length_map, List.length_cons] at hlen
    omega
  | plain c p hpercent hunderscore hescape ih =>
    rw [shortest_cons hpercent hunderscore hescape, List.map_cons, List.map_cons, List.cons.injEq] at h
    intro x hx
    rcases List.mem_cons.1 hx with rfl | hx
    · exact ⟨hpercent, hunderscore, hescape⟩
    · exact ih h.2 x hx

/-! ## Plain texts -/

/-- A plain text is matched by the texts that begin with it. -/
theorem ilike_plain (hp : PlainText p) : ilike fold (p ++ ['%']) s = true ↔ p.map fold <+: s.map fold := by
  induction p generalizing s with
  | nil =>
    refine iff_of_true (ilike_percent.2 ⟨[], List.nil_suffix, rfl⟩) List.nil_prefix
  | cons c p ih =>
    obtain ⟨hpercent, hunderscore, hescape⟩ := hp c (by simp)
    have hp' : PlainText p := fun x hx => hp x (List.mem_cons_of_mem _ hx)
    cases s with
    | nil =>
      rw [List.cons_append, ilike_cons_nil hpercent]
      simp
    | cons x s =>
      rw [List.cons_append, ilike_cons hpercent hunderscore hescape, Bool.and_eq_true, beq_iff_eq,
        List.map_cons, List.map_cons, List.cons_prefix_cons, ih hp', eq_comm]

theorem toList_pattern (text : String) : s!"%{text}%".toList = '%' :: (text.toList ++ ['%']) := by
  rw [show s!"%{text}%" = "%" ++ text ++ "%" from rfl, String.toList_append, String.toList_append]
  rfl

theorem ilikeContains_plain {column text : String} (hp : PlainText text.toList) :
    ilikeContains fold column text = true ↔ text.toList.map fold <:+: column.toList.map fold := by
  unfold ilikeContains
  rw [toList_pattern, ilike_percent, List.infix_iff_prefix_suffix]
  constructor
  · intro ⟨t, ht, h⟩
    exact ⟨t.map fold, (ilike_plain hp).1 h, ht.map fold⟩
  · intro ⟨t', h, ht'⟩
    obtain ⟨t, ht, rfl⟩ := List.suffix_map_iff.1 ht'
    exact ⟨t, ht, (ilike_plain hp).2 h⟩

/-- A text contains its shortest text, and nothing shorter does. -/
theorem ilikeContains_shortest (text : String) :
    ilikeContains fold (String.ofList (shortest text.toList)) text = true := by
  unfold ilikeContains
  rw [toList_pattern, ilike_percent]
  exact ⟨_, List.suffix_rfl, by simpa using ilike_shortest text.toList⟩

theorem length_of_ilikeContains {column text : String} (h : ilikeContains fold column text = true) :
    (shortest text.toList).length ≤ column.toList.length := by
  unfold ilikeContains at h
  rw [toList_pattern, ilike_percent] at h
  obtain ⟨t, ht, h⟩ := h
  exact (length_of_ilike _ h).trans ht.length_le

end

/-! ## One filter -/

/-- The column contains the text literally, but for the case of the letters. -/
def containsLiterally (fold : Char → Char) (column text : String) : Prop :=
  text.toList.map fold <:+: column.toList.map fold

instance (fold : Char → Char) (column text : String) : Decidable (containsLiterally fold column text) :=
  inferInstanceAs (Decidable (_ <:+: _))

/-- `ILIKE` finds the text of a filter in the column; one that is absent or empty is not looked for. -/
def finds (fold : Char → Char) (o : Option String) (column : String) : Bool :=
  o.all fun text => text = "" || ilikeContains fold column text

/-- No character of the filter means something in a pattern. -/
def PlainFilter (o : Option String) : Prop := ∀ text ∈ o, PlainText text.toList

/-- No text of a `String(100)` column matches the filter. -/
def TooLong (o : Option String) : Prop := ∃ text ∈ o, 100 < (shortest text.toList).length

/-- A shortest text that the filter finds. -/
def sample (o : Option String) : String := String.ofList (shortest (o.getD "").toList)

section

variable {fold : Char → Char} {o : Option String} {column : String}

theorem finds_plain (hp : PlainFilter o) :
    finds fold o column = o.all (containsLiterally fold column ·) := by
  cases o with
  | none => rfl
  | some text =>
    have hempty (h : text = "") : containsLiterally fold column text := by
      subst h
      exact List.nil_infix
    have htext : ilikeContains fold column text = true ↔ _ := ilikeContains_plain (hp text rfl)
    rw [finds, Option.all_some, Option.all_some, Bool.eq_iff_iff]
    simp only [Bool.or_eq_true, decide_eq_true_iff, htext]
    exact ⟨fun h => h.elim hempty id, .inr⟩

/-- A text that is too long is neither matched nor contained. -/
theorem finds_tooLong (h : TooLong o) (hc : column.length ≤ 100) :
    finds fold o column = false ∧ o.all (containsLiterally fold column ·) = false := by
  obtain ⟨text, rfl, hlong⟩ := h
  rw [← String.length_toList] at hc
  have hlength := length_shortest_le text.toList
  constructor
  · apply Bool.eq_false_iff.2
    intro h
    simp only [finds, Option.all_some, Bool.or_eq_true, decide_eq_true_iff] at h
    rcases h with rfl | h
    · cases hlong
    · have := length_of_ilikeContains h
      omega
  · apply Bool.eq_false_iff.2
    intro h
    have := (decide_eq_true_iff.1 h).length_le
    simp only [List.length_map] at this
    omega

theorem finds_sample : finds fold o (sample o) = true := by
  cases o with
  | none => rfl
  | some text => simp [finds, sample, ilikeContains_shortest]

/-- Only a plain text is contained in its shortest text. -/
theorem plainFilter_of_sample (hunderscore : fold '%' ≠ fold '_') (hescape : fold '%' ≠ fold '\\')
    (h : o.all (containsLiterally fold (sample o) ·) = true) : PlainFilter o := by
  intro text htext
  subst htext
  have hin := decide_eq_true_iff.1 h
  have hlength := length_shortest_le text.toList
  refine plainText_of_shortest hunderscore hescape ?_
  simp only [containsLiterally, sample, Option.getD_some, String.toList_ofList] at hin
  exact (hin.eq_of_length_le (by simpa using hlength)).symm

theorem sample_length (h : ¬ TooLong o) : (sample o).length ≤ 100 := by
  cases o with
  | none => simp [sample, shortest]
  | some text =>
    refine Nat.le_of_not_lt fun hlong => h ⟨text, rfl, ?_⟩
    simpa [sample] using hlong

end

/-! ## The filters of a search -/

/-- The active routes whose origin and destination contain the texts of the filter literally. -/
def RouteFilter.literal (fold : Char → Char) (f : RouteFilter) (r : Route) : Bool :=
  r.isActive && f.origin.all (containsLiterally fold r.origin ·) &&
    f.destination.all (containsLiterally fold r.destination ·)

/-- Every route fits its columns. -/
def Storable (db : Db) : Prop := ∀ r ∈ db.routes.rows, Db.fits (.insertRoute r) = true

/-- `list_active` counts and selects the routes that contain the texts literally. -/
structure Literally (server : Server) (db : Db) (f : RouteFilter) : Prop where
  count : ∀ page size, (listActive server db f page size).map Prod.snd =
    some ((db.routes.rows.countP (f.literal server.fold) : Nat) : Int)
  select : ∀ page size, (listActive server db f page size).map Prod.fst =
    some (((server.order f ((page - 1) * size) size (db.routes.rows.filter (f.literal server.fold))).drop
      ((page - 1) * size).toNat).take size.toNat)

section

variable {server : Server} {fold : Char → Char} {db : Db} {f : RouteFilter} {r : Route}

theorem accepts_eq :
    f.accepts fold r =
      (r.isActive && finds fold f.origin r.origin && finds fold f.destination r.destination) := by
  obtain ⟨origin, destination⟩ := f
  cases origin <;> cases destination <;> rfl

theorem Storable.lengths (hs : Storable db) (hr : r ∈ db.routes.rows) :
    r.origin.length ≤ 100 ∧ r.destination.length ≤ 100 := by
  have h := hs r hr
  simp only [Db.fits, Db.stringOk, Bool.and_eq_true, decide_eq_true_iff] at h
  exact h.1

theorem literally_of_accepts (h : ∀ r ∈ db.routes.rows, f.accepts server.fold r = f.literal server.fold r) :
    Literally server db f := by
  constructor
  · intro page size
    rw [listActive_eq, List.countP_congr fun r hr => by rw [h r hr]]
    rfl
  · intro page size
    rw [listActive_eq, World.routesOf, List.filter_congr h]
    rfl

/-- Filters without a character of the pattern language are literal, and those too long for a column
find nothing. -/
theorem literally_of_plain (hs : Storable db)
    (h : PlainFilter f.origin ∧ PlainFilter f.destination ∨ TooLong f.origin ∨ TooLong f.destination) :
    Literally server db f := by
  apply literally_of_accepts
  intro r hr
  obtain ⟨horigin, hdestination⟩ := hs.lengths hr
  rw [accepts_eq, RouteFilter.literal]
  rcases h with ⟨ho, hd⟩ | ho | hd
  · rw [finds_plain ho, finds_plain hd]
  · obtain ⟨hfinds, hliteral⟩ := @finds_tooLong server.fold _ _ ho horigin
    rw [hfinds, hliteral]
    simp
  · obtain ⟨hfinds, hliteral⟩ := @finds_tooLong server.fold _ _ hd hdestination
    rw [hfinds, hliteral]
    simp

/-- The route from a shortest text of one filter to a shortest text of the other. -/
def RouteFilter.sample (f : RouteFilter) : Route :=
  ⟨1, BusBookings.sample f.origin, BusBookings.sample f.destination, { year := 2030, month := 6, day := 1 },
    { year := 2030, month := 6, day := 2 }, 2, 150000, true⟩

theorem accepts_sample : f.accepts fold f.sample = true := by
  rw [accepts_eq]
  simp [RouteFilter.sample, finds_sample]

theorem storable_sample (horigin : ¬ TooLong f.origin) (hdestination : ¬ TooLong f.destination) :
    Storable (dbOf [f.sample] (List.nodup_singleton _)) := by
  intro r hr
  obtain rfl : r = f.sample := List.mem_singleton.1 hr
  have ho := sample_length horigin
  have hd := sample_length hdestination
  simp [Db.fits, Db.stringOk, Db.numericOk, RouteFilter.sample, ho, hd]

/-- The count of the database with one route says whether the filter accepts it. -/
theorem Literally.accepts_eq (h : Literally server (dbOf [r] (List.nodup_singleton _)) f) :
    f.accepts server.fold r = f.literal server.fold r := by
  have hcount := h.count 1 1
  rw [listActive_eq] at hcount
  simp only [dbOf, Option.map_some, List.countP_singleton, Option.some.injEq] at hcount
  cases ha : f.accepts server.fold r <;> cases hl : f.literal server.fold r <;> simp [ha, hl] at hcount ⊢

/-- `list_active` is a literal search, whatever the routes, exactly if no character of the filters
means something in a pattern, or one of the filters matches only texts that are too long for its
column. -/
theorem literally_iff (server : Server) (f : RouteFilter) (hunderscore : server.fold '%' ≠ server.fold '_')
    (hescape : server.fold '%' ≠ server.fold '\\') :
    (∀ db, Storable db → Literally server db f) ↔
      PlainFilter f.origin ∧ PlainFilter f.destination ∨ TooLong f.origin ∨ TooLong f.destination := by
  constructor
  · intro h
    by_cases horigin : TooLong f.origin
    · exact .inr (.inl horigin)
    by_cases hdestination : TooLong f.destination
    · exact .inr (.inr hdestination)
    have hliteral := (h _ (storable_sample horigin hdestination)).accepts_eq
    rw [accepts_sample, RouteFilter.literal] at hliteral
    simp only [Eq.comm (a := true), Bool.and_eq_true] at hliteral
    obtain ⟨⟨-, ho⟩, hd⟩ := hliteral
    exact .inl ⟨plainFilter_of_sample hunderscore hescape ho, plainFilter_of_sample hunderscore hescape hd⟩
  · intro h db hs
    exact literally_of_plain hs h

end

theorem storable_someRoute : Storable (dbOf [someRoute] (List.nodup_singleton _)) := by
  intro r hr
  obtain rfl : r = someRoute := List.mem_singleton.1 hr
  decide

/-- The filter `mosk`, of any case, finds the route from Moskva. -/
theorem literally_iff_plain :
    Literally plainServer (dbOf [someRoute] (List.nodup_singleton _)) ⟨some "mosk", none⟩ := by
  refine (literally_iff plainServer ⟨some "mosk", none⟩ (by decide) (by decide)).2
    (.inl ⟨fun text h => ?_, fun text h => by cases h⟩) _ storable_someRoute
  cases h
  decide

/-- The filter `_` finds the route from Moskva, which contains no `_`. -/
theorem literally_fails : Storable (dbOf [someRoute] (List.nodup_singleton _)) ∧
    ¬ Literally plainServer (dbOf [someRoute] (List.nodup_singleton _)) ⟨some "_", none⟩ := by
  refine ⟨storable_someRoute, fun h => ?_⟩
  exact absurd h.accepts_eq (by decide +kernel)

end BusBookings
