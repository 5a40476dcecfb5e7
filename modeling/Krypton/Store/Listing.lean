import Mathlib
import Krypton.Lib.Base64
import Krypton.Lib.Check
import Krypton.Lib.Like
import Krypton.Lib.Paging
import Krypton.Store.Statements

/-!
# Listing keys

`ListKeys` (`pkg/store/sql/key.go`, `cursor.go`): the keys of a tenant that meet some filters, a page at a time. A name
filter is escaped and becomes a pattern for `ILIKE`. A page ends with a cursor, the place of its last key as JSON in
base64, when one key more than fits was found; the next request sends it back.

The case folding of the database and the JSON encoder are parameters.

* `escapeLikePattern_matches` — a name filter selects the names that contain it;
* `listKeys_pages` — following the cursors reads every matching key once and in order, in full pages; when keys are
  added or changed in between, those that match all the time are still read once.
-/

namespace Krypton

open Lib

/-! ## Name filters -/

/-- The rest of `strings.ReplaceAll`; `skip` symbols of the last occurrence are still to be passed over. -/
def replaceFrom (old new : List Char) : Nat → List Char → List Char
  | _, [] => []
  | skip + 1, _ :: cs => replaceFrom old new skip cs
  | 0, c :: cs =>
    if old.isPrefixOf (c :: cs) then new ++ replaceFrom old new (old.length - 1) cs else c :: replaceFrom old new 0 cs

/-- `strings.ReplaceAll` for an `old` that is not empty. -/
def replaceAll (s old new : String) : String := String.ofList (replaceFrom old.toList new.toList 0 s.toList)

def escapeLikePattern (s : String) : String :=
  let s := replaceAll s "\\" "\\\\"
  let s := replaceAll s "%" "\\%"
  replaceAll s "_" "\\_"

/-- The special characters of `LIKE … ESCAPE '\'`. -/
def sqlWildcards : Wildcards Char where
  many := '%'
  one := '_'
  escape := '\\'
  many_ne_one := by decide
  many_ne_escape := by decide
  one_ne_escape := by decide

/-- `text ILIKE pattern ESCAPE '\'`, where characters are compared after `fold`; `none` is an error. -/
def ilike (fold : Char → Char) (text pattern : String) : Option Bool :=
  sqlWildcards.like (fun a b => fold a == fold b) pattern.toList text.toList

theorem replaceFrom_single (a : Char) (new : List Char) : ∀ s : List Char,
    replaceFrom [a] new 0 s = s.flatMap fun c => if c = a then new else [c]
  | [] => rfl
  | c :: cs => by
    rw [replaceFrom, List.flatMap_cons, ← replaceFrom_single a new cs]
    by_cases h : c = a
    · simp [h]
    · have h' : ¬ a = c := fun he => h he.symm
      simp [h, h']

/-- The three replacements together quote each special character once. -/
theorem toList_escapeLikePattern (s : String) : (escapeLikePattern s).toList = sqlWildcards.quote s.toList := by
  simp only [escapeLikePattern, replaceAll, String.toList_ofList]
  show replaceFrom ['_'] ['\\', '_'] 0
    (replaceFrom ['%'] ['\\', '%'] 0 (replaceFrom ['\\'] ['\\', '\\'] 0 s.toList)) = _
  simp only [replaceFrom_single, List.flatMap_assoc, Wildcards.quote]
  refine List.flatMap_congr fun c _ => ?_
  -- the escape characters of one replacement are none of those that the next one looks for
  unfold Wildcards.quoteSymbol sqlWildcards
  by_cases hescape : c = '\\'
  · subst hescape
    decide
  · by_cases hmany : c = '%'
    · subst hmany
      decide
    · by_cases hone : c = '_' <;> simp [hescape, hmany, hone]

theorem toList_pattern (s : String) : ("%" ++ escapeLikePattern s ++ "%").toList =
    sqlWildcards.many :: (sqlWildcards.quote s.toList ++ [sqlWildcards.many]) := by
  rw [String.toList_append, String.toList_append, toList_escapeLikePattern]
  rfl

theorem ilike_pattern (fold : Char → Char) (s t : String) :
    ilike fold t ("%" ++ escapeLikePattern s ++ "%") = some (decide (s.toList.map fold <:+: t.toList.map fold)) := by
  rw [ilike, toList_pattern]
  exact sqlWildcards.like_contains fold s.toList t.toList

/-- **Name filters.** The pattern made from a filter is one, and it matches the names that contain the filter, whether
case is folded in the comparison or beforehand. -/
theorem escapeLikePattern_matches (fold : Char → Char) (s t : String) :
    (sqlWildcards.parse ("%" ++ escapeLikePattern s ++ "%").toList).isSome = true ∧
    (ilike fold t ("%" ++ escapeLikePattern s ++ "%") = some true ↔ s.toList.map fold <:+: t.toList.map fold) ∧
    (sqlWildcards.Keeps fold → (sqlWildcards.like (fun a b => a == b)
      (("%" ++ escapeLikePattern s ++ "%").toList.map fold)
      (t.toList.map fold) = some true ↔ s.toList.map fold <:+: t.toList.map fold)) := by
  have hlike := ilike_pattern fold s t
  have hiff : ilike fold t ("%" ++ escapeLikePattern s ++ "%") = some true ↔
      s.toList.map fold <:+: t.toList.map fold := by
    rw [hlike, Option.some.injEq, decide_eq_true_iff]
  refine ⟨?_, hiff, ?_⟩
  · rw [ilike, Wildcards.like] at hlike
    obtain ⟨ts, hts, -⟩ := Option.map_eq_some_iff.1 hlike
    rw [hts]
    rfl
  · intro hkeeps
    rw [hkeeps.like_map]
    exact hiff

/-- A per cent sign in a filter stands for itself, and case does not matter. -/
theorem escapeLikePattern_percent :
    ilike Char.toLower "rate-5%-DISCOUNT" ("%" ++ escapeLikePattern "5%-dis" ++ "%") = some true ∧
      ilike Char.toLower "rate-50-discount" ("%" ++ escapeLikePattern "5%-dis" ++ "%") ≠ some true :=
  ⟨(escapeLikePattern_matches _ _ _).2.1.2 (by decide),
    fun h => absurd ((escapeLikePattern_matches _ _ _).2.1.1 h) (by decide)⟩

/-! ## Cursors -/

/-- The place of a key in the listing. -/
structure Cursor where
  id : String
  createdAt : Int
  deriving DecidableEq, Repr

/-- `encoding/json/v2` for cursors. -/
structure CursorJson where
  marshal : Cursor → Except Err Bytes
  unmarshal : Bytes → Except Err Cursor

/-- The alphabet of `base64.RawURLEncoding`. -/
def rawURLEncoding : Alphabet where
  digits := "ABCDEFGHIJKLMNOPQRSTUVWXYZabcdefghijklmnopqrstuvwxyz0123456789-_".toList
  length := by decide
  nodup := by decide +kernel
  no_break := by decide +kernel

def Cursor.encode (J : CursorJson) (c : Cursor) : Except Err String := do
  let b ← J.marshal c
  pure (String.ofList (rawURLEncoding.encode b))

def decodeCursor (J : CursorJson) (es : String) : Except Err Cursor :=
  match rawURLEncoding.decode es.toList with
  | .error i => .error (.plain ("illegal base64 data at input byte " ++ toString i))
  | .ok b => J.unmarshal b

/-- The encoder writes something for the place of a stored key and reads it back. -/
def CursorJson.RoundTrip (J : CursorJson) : Prop :=
  ∀ c : Cursor, Canonical c.id → ∃ b, J.marshal c = .ok b ∧ b ≠ [] ∧ J.unmarshal b = .ok c

theorem decodeCursor_encode {J : CursorJson} (hJ : J.RoundTrip) {c : Cursor} (hc : Canonical c.id) :
    ∃ es, c.encode J = .ok es ∧ es ≠ "" ∧ decodeCursor J es = .ok c := by
  obtain ⟨b, hb, hne, hback⟩ := hJ c hc
  refine ⟨String.ofList (rawURLEncoding.encode b), ?_, ?_, ?_⟩
  · rw [Cursor.encode, bind_eq_of_ok hb]
    rfl
  · intro hempty
    have hnil := congrArg String.toList hempty
    rw [String.toList_ofList] at hnil
    exact Alphabet.encode_ne_nil hne hnil
  · rw [decodeCursor, String.toList_ofList, Alphabet.decode_encode]
    exact hback

/-! ## The query -/

structure ListKeysQuery where
  tenantID : String
  /-- No condition when empty; the same for the next four. -/
  name : String
  kind : String
  lifeCycleState : String
  managedBy : String
  labels : Labels
  isOrderByCreatedAtAsc : Bool
  /-- Start at the beginning when empty. -/
  cursor : String
  limit : Int
  deriving DecidableEq, Repr

structure ListKeysResult where
  keys : List Key
  cursor : String
  deriving DecidableEq, Repr

def errLikePattern : Err := .plain "pq: LIKE pattern must not end with escape character"

def errNegativeLimit : Err := .plain "pq: LIMIT must not be negative"

/-- `(created_at, id)`. -/
def Key.position (k : Key) : Int × String := (k.createdAt, k.id)

/-- One place comes before another in the requested order. Identifiers are compared as sixteen bytes, which is the order
of their canonical texts. -/
def listedBefore (asc : Bool) (p q : Int × String) : Prop := if asc then toLex p < toLex q else toLex q < toLex p

instance (asc : Bool) : DecidableRel (listedBefore asc) := fun p q =>
  inferInstanceAs (Decidable (if asc then toLex p < toLex q else toLex q < toLex p))

/-- The conditions of the query but for the cursor. -/
def ListKeysQuery.selects (fold : Char → Char) (q : ListKeysQuery) (tenantID : Uuid) (r : Key) : Bool :=
  r.tenantID == tenantID.text && (q.kind == "" || r.kind == q.kind) &&
    (q.lifeCycleState == "" || r.lifeCycleState.text == q.lifeCycleState) &&
    (q.name == "" || ilike fold r.name ("%" ++ escapeLikePattern q.name ++ "%") == some true) &&
    (q.managedBy == "" || r.managedBy == q.managedBy) && q.labels.all fun p => r.labels.get p.1 == some p.2

/-- The statement that is sent to the database. -/
def DB.selectKeys (db : DB) (fold : Char → Char) (q : ListKeysQuery) (after : Option Cursor) (fetchLimit : Int) :
    Except Err (List Key) :=
  match Uuid.parse q.tenantID, after.mapM fun c => (Uuid.parse c.id).map fun u => (c.createdAt, u.text) with
  | some t, some place =>
    if q.name ≠ "" ∧ (sqlWildcards.parse ("%" ++ escapeLikePattern q.name ++ "%").toList).isNone then
      .error errLikePattern
    else if fetchLimit < 0 then .error errNegativeLimit
    else
      let rows := db.keys.rows.filter fun r =>
        q.selects fold t r && place.all fun p => listedBefore q.isOrderByCreatedAtAsc p r.position
      let ordered := rows.insertionSort fun a b => ¬ listedBefore q.isOrderByCreatedAtAsc b.position a.position
      .ok (ordered.take fetchLimit.toNat)
  | _, _ => .error errUuidSyntax

/-- Addition of an `int`. -/
def addInt (x y : Int) : Int := (x + y).bmod (2 ^ 64)

/-- The place to start after, if the request has a cursor. -/
def readCursor (J : CursorJson) (cursor : String) : Except Err (Option Cursor) :=
  if cursor = "" then .ok none else ((decodeCursor J cursor).mapError (.context "invalid cursor")).map some

/-- Cut off the key that was fetched to see whether there are more, and make the cursor. -/
def cutPage (J : CursorJson) (pageSize fetchLimit : Int) (keys : List Key) : Except Err (List Key × String) :=
  if keys.length = fetchLimit then
    match keys[(pageSize - 1).toNat]? with
    | some last => ((Cursor.mk last.id last.createdAt).encode J).map fun cursor => (keys.take pageSize.toNat, cursor)
    | none => .error (.plain "runtime error: index out of range")
  else .ok (keys, "")

def ListKeysQuery.pageSize (q : ListKeysQuery) : Int := if q.limit ≤ 0 then 50 else q.limit

def DB.listKeys (db : DB) (fold : Char → Char) (J : CursorJson) (q : ListKeysQuery) : Except Err ListKeysResult := do
  let after ← readCursor J q.cursor
  let fetchLimit := addInt q.pageSize 1
  let keys ← db.selectKeys fold q after fetchLimit
  let page ← cutPage J q.pageSize fetchLimit keys
  if page.1.isEmpty then .error (.of .keyNotFound) else .ok ⟨page.1, page.2⟩

/-- A client that follows the cursors until there is none or a request fails, the tables it meets and the pages it
gets. -/
inductive Listing (fold : Char → Char) (J : CursorJson) : ListKeysQuery → List DB → List (List Key) → Prop
  | last {q : ListKeysQuery} {db : DB} {keys : List Key} :
    db.listKeys fold J q = .ok ⟨keys, ""⟩ → Listing fold J q [db] [keys]
  | failed {q : ListKeysQuery} {db : DB} {err : Err} : db.listKeys fold J q = .error err → Listing fold J q [db] []
  | more {q : ListKeysQuery} {db : DB} {dbs : List DB} {keys : List Key} {cursor : String} {pages : List (List Key)} :
      db.listKeys fold J q = .ok ⟨keys, cursor⟩ → cursor ≠ "" → Listing fold J { q with cursor } dbs pages →
      Listing fold J q (db :: dbs) (keys :: pages)

/-! ## What a request selects -/

/-- The key meets the filters of the query. -/
structure ListKeysQuery.Matches (fold : Char → Char) (q : ListKeysQuery) (k : Key) : Prop where
  tenantID : uuidIn q.tenantID = some k.tenantID
  kind : q.kind = "" ∨ k.kind = q.kind
  lifeCycleState : q.lifeCycleState = "" ∨ k.lifeCycleState.text = q.lifeCycleState
  /-- Every name contains the empty one. -/
  name : q.name.toList.map fold <:+: k.name.toList.map fold
  managedBy : q.managedBy = "" ∨ k.managedBy = q.managedBy
  labels : ∀ p ∈ q.labels, k.labels.get p.1 = some p.2

section
variable {fold : Char → Char} {J : CursorJson} {q : ListKeysQuery} {t : Uuid} {db : DB}

theorem ListKeysQuery.pageSize_pos (q : ListKeysQuery) : 0 < q.pageSize := by
  unfold pageSize
  split <;> omega

theorem ListKeysQuery.pageSize_lt (h : q.limit < 2 ^ 63 - 1) : q.pageSize < 2 ^ 63 - 1 := by
  unfold pageSize
  split <;> omega

/-- One key more than fits on a page is asked for. -/
theorem ListKeysQuery.addInt_pageSize (h : q.limit < 2 ^ 63 - 1) :
    addInt q.pageSize 1 = (q.pageSize.toNat + 1 : Nat) := by
  have hpos := q.pageSize_pos
  have hbound := q.pageSize_lt h
  unfold addInt
  rw [Int.bmod_eq_of_le] <;> omega

theorem selects_iff (ht : Uuid.parse q.tenantID = some t) {k : Key} : q.selects fold t k = true ↔ q.Matches fold k := by
  have hname : (q.name = "" ∨ ilike fold k.name ("%" ++ escapeLikePattern q.name ++ "%") = some true) ↔
      q.name.toList.map fold <:+: k.name.toList.map fold := by
    rw [ilike_pattern, Option.some.injEq, decide_eq_true_iff]
    refine or_iff_right_of_imp fun hempty => ?_
    rw [hempty]
    exact List.nil_infix
  rw [Uuid.parse_eq_some] at ht
  simp only [ListKeysQuery.selects, Bool.and_eq_true, Bool.or_eq_true, beq_iff_eq, List.all_eq_true, hname]
  constructor
  · intro ⟨⟨⟨⟨⟨hten, hkind⟩, hstate⟩, hn⟩, hman⟩, hlab⟩
    exact ⟨by rw [ht, hten], hkind, hstate, hn, hman, hlab⟩
  · intro h
    have hten := h.tenantID
    rw [ht, Option.some.injEq] at hten
    exact ⟨⟨⟨⟨⟨hten.symm, h.kind⟩, h.lifeCycleState⟩, h.name⟩, h.managedBy⟩, h.labels⟩

instance (asc : Bool) : IsStrictTotalOrder (Int × String) (listedBefore asc) where
  trichotomous p q hpq hqp := by
    unfold listedBefore at hpq hqp
    cases asc with
    | false => exact toLex.injective (le_antisymm (not_lt.1 hpq) (not_lt.1 hqp))
    | true => exact toLex.injective (le_antisymm (not_lt.1 hqp) (not_lt.1 hpq))
  irrefl p h := by
    unfold listedBefore at h
    cases asc <;> exact lt_irrefl _ h
  trans p q r hpq hqr := by
    unfold listedBefore at *
    cases asc with
    | false => exact lt_trans hqr hpq
    | true => exact lt_trans hpq hqr

/-- The stored keys that meet the filters. -/
def DB.matching (db : DB) (fold : Char → Char) (q : ListKeysQuery) (t : Uuid) : List Key :=
  db.keys.rows.filter (q.selects fold t)

theorem DB.matching_nodup (db : DB) (fold : Char → Char) (q : ListKeysQuery) (t : Uuid) :
    ((db.matching fold q t).map Key.position).Nodup := by
  have hids : ((db.matching fold q t).map Key.id).Nodup := db.ids_nodup.sublist (List.filter_sublist.map Key.id)
  refine List.Nodup.of_map Prod.snd ?_
  rw [List.map_map]
  exact hids

/-- The cursor of a request stands for a place in the listing. -/
def Denotes (J : CursorJson) (cursor : String) : Option (Int × String) → Prop
  | none => cursor = ""
  | some p => cursor ≠ "" ∧ Canonical p.2 ∧ decodeCursor J cursor = .ok ⟨p.2, p.1⟩

theorem denotes_none {cursor : String} (h : cursor = "") : Denotes J cursor none := h

theorem selectKeys_eq (ht : Uuid.parse q.tenantID = some t) {place : Option (Int × String)}
    (hplace : ∀ p ∈ place, Canonical p.2) {n : Int} (hn : 0 ≤ n) :
    db.selectKeys fold q (place.map fun p => ⟨p.2, p.1⟩) n =
      .ok ((remaining (listedBefore q.isOrderByCreatedAtAsc) Key.position place
        (db.matching fold q t)).take n.toNat) := by
  have hparam : (place.map fun p => (⟨p.2, p.1⟩ : Cursor)).mapM
      (fun c => (Uuid.parse c.id).map fun u => (c.createdAt, u.text)) = some place := by
    cases place with
    | none => rfl
    | some p =>
      have hp : Uuid.parse p.2 = some ⟨p.2, hplace p rfl⟩ := Uuid.parse_eq_some.2 (hplace p rfl)
      simp [hp]
  have hpattern : ¬ (q.name ≠ "" ∧
      (sqlWildcards.parse ("%" ++ escapeLikePattern q.name ++ "%").toList).isNone = true) := by
    have hsome := ilike_pattern fold q.name ""
    rw [ilike, Wildcards.like] at hsome
    obtain ⟨ts, hts, -⟩ := Option.map_eq_some_iff.1 hsome
    rw [hts]
    exact fun h => absurd h.2 Bool.false_ne_true
  unfold DB.selectKeys
  rw [ht, hparam]
  simp only [if_neg hpattern, if_neg (not_lt.2 hn), remaining, DB.matching, List.filter_filter, Bool.and_comm]

theorem readCursor_eq {place : Option (Int × String)} (hplace : Denotes J q.cursor place) :
    readCursor J q.cursor = .ok (place.map fun p => ⟨p.2, p.1⟩) := by
  unfold readCursor
  cases place with
  | none => exact if_pos hplace
  | some p =>
    rw [if_neg hplace.1, hplace.2.2]
    rfl

/-- The last key of a full page is stored, so its place can be written as a cursor. -/
theorem cutPage_eq (hJ : J.RoundTrip) {keys : List Key} (hkeys : ∀ k ∈ keys, Canonical k.id) {n : Nat} (hn : 0 < n) :
    (keys.length ≠ n + 1 ∧ cutPage J n (n + 1 : Nat) keys = .ok (keys, "")) ∨
      ∃ last cursor, keys.length = n + 1 ∧ keys[n - 1]? = some last ∧ Denotes J cursor (some last.position) ∧
        cutPage J n (n + 1 : Nat) keys = .ok (keys.take n, cursor) := by
  by_cases hlen : keys.length = n + 1
  · right
    have hlt : n - 1 < keys.length := by omega
    have hlast : keys[n - 1]? = some keys[n - 1] := List.getElem?_eq_getElem hlt
    have hcanon := hkeys _ (List.getElem_mem hlt)
    obtain ⟨cursor, henc, hne, hdec⟩ := decodeCursor_encode hJ (c := ⟨keys[n - 1].id, keys[n - 1].createdAt⟩) hcanon
    refine ⟨_, cursor, hlen, hlast, ⟨hne, hcanon, hdec⟩, ?_⟩
    have hidx : ((n : Int) - 1).toNat = n - 1 := by omega
    rw [cutPage, if_pos (by exact_mod_cast hlen), hidx, hlast]
    simp only [henc]
    rfl
  · left
    refine ⟨hlen, ?_⟩
    rw [cutPage, if_neg (by exact_mod_cast hlen)]

/-- The three answers to a request: nothing is left, the last page, or a full page with the cursor for what is left. -/
theorem listKeys_cases (fold : Char → Char) (db : DB) (hJ : J.RoundTrip) (hlimit : q.limit < 2 ^ 63 - 1)
    (ht : Uuid.parse q.tenantID = some t) {place : Option (Int × String)} (hplace : Denotes J q.cursor place) :
    let p := page (listedBefore q.isOrderByCreatedAtAsc) Key.position q.pageSize.toNat place (db.matching fold q t)
    (p.rows = [] ∧ p.next = none ∧ db.listKeys fold J q = .error (.of .keyNotFound)) ∨
      (p.rows ≠ [] ∧ p.next = none ∧ db.listKeys fold J q = .ok ⟨p.rows, ""⟩) ∨
      ∃ k cursor, p.rows ≠ [] ∧ p.next = some k ∧ db.listKeys fold J q = .ok ⟨p.rows, cursor⟩ ∧
        Denotes J cursor (some k) := by
  have hpos := q.pageSize_pos
  have hcanon : ∀ p ∈ place, Canonical p.2 := by
    intro p hp
    cases hp
    exact hplace.2.1
  obtain ⟨n, hn⟩ : ∃ n : Nat, q.pageSize = n := ⟨q.pageSize.toNat, by omega⟩
  have hfetch := q.addInt_pageSize hlimit
  rw [hn, Int.toNat_natCast] at hfetch
  intro p
  rw [DB.listKeys, bind_eq_of_ok (readCursor_eq hplace)]
  simp only [hn, hfetch]
  rw [bind_eq_of_ok (selectKeys_eq ht hcanon (Int.natCast_nonneg _)), Int.toNat_natCast]
  generalize hfetched : (remaining (listedBefore q.isOrderByCreatedAtAsc) Key.position place
    (db.matching fold q t)).take (n + 1) = fetched
  have hpage : p = if fetched.length = n + 1 then ⟨fetched.take n, fetched[n - 1]?.map Key.position⟩
      else ⟨fetched, none⟩ := by
    rw [← hfetched, show n = q.pageSize.toNat by omega]
    rfl
  have hkeys : ∀ k ∈ fetched, Canonical k.id := by
    intro k hk
    rw [← hfetched] at hk
    exact (DB.key_canonical (List.mem_of_mem_filter (mem_remaining.1 (List.mem_of_mem_take hk)).1)).1
  obtain ⟨hlen, hcut⟩ | ⟨last, cursor, hlen, hlast, hden, hcut⟩ := cutPage_eq hJ hkeys (n := n) (by omega)
  · rw [if_neg hlen] at hpage
    rw [bind_eq_of_ok hcut, hpage]
    cases hf : fetched with
    | nil => exact .inl ⟨rfl, rfl, rfl⟩
    | cons k ks => exact .inr (.inl ⟨List.cons_ne_nil k ks, rfl, rfl⟩)
  · rw [if_pos hlen, hlast] at hpage
    have hne : fetched.take n ≠ [] := by
      intro hnil
      have := congrArg List.length hnil
      rw [List.length_take, List.length_nil] at this
      omega
    have hempty : (fetched.take n).isEmpty = false := by
      simpa using hne
    rw [bind_eq_of_ok hcut, hpage]
    refine .inr (.inr ⟨_, cursor, hne, rfl, ?_, hden⟩)
    simp only [hempty, Bool.false_eq_true, if_false]

/-! ## Following the cursors -/

/-- Following the cursors reads pages of the matching keys; what is left may be nothing. -/
theorem Listing.pages (hJ : J.RoundTrip) (hlimit : q.limit < 2 ^ 63 - 1) (ht : Uuid.parse q.tenantID = some t)
    {place : Option (Int × String)} (hplace : Denotes J q.cursor place) {dbs : List DB} {answers : List (List Key)}
    (h : Listing fold J q dbs answers) : ∃ pages,
      Pages (listedBefore q.isOrderByCreatedAtAsc) Key.position q.pageSize.toNat place
        (dbs.map fun db => db.matching fold q t) pages ∧ answers = pages.filter (· ≠ []) := by
  induction h generalizing place with
  | @last q db keys hok =>
    rcases listKeys_cases fold db hJ hlimit ht hplace with
      ⟨-, -, h⟩ | ⟨hne, hnext, h⟩ | ⟨k, cursor, -, -, h, hden⟩
    · rw [h] at hok
      cases hok
    · rw [h] at hok
      cases hok
      exact ⟨_, .last hnext, by simp [hne]⟩
    · rw [h] at hok
      cases hok
      exact absurd rfl hden.1
  | @failed q db err herr =>
    rcases listKeys_cases fold db hJ hlimit ht hplace with
      ⟨hnil, hnext, -⟩ | ⟨-, -, h⟩ | ⟨_, _, -, -, h, -⟩
    · exact ⟨_, .last hnext, by simp [hnil]⟩
    · rw [h] at herr
      cases herr
    · rw [h] at herr
      cases herr
  | @more q db dbs keys cursor answers hok hcursor hrun ih =>
    rcases listKeys_cases fold db hJ hlimit ht hplace with
      ⟨-, -, h⟩ | ⟨-, -, h⟩ | ⟨k, cursor', hne, hnext, h, hden⟩
    · rw [h] at hok
      cases hok
    · rw [h] at hok
      cases hok
      exact absurd rfl hcursor
    · rw [h] at hok
      cases hok
      obtain ⟨pages, hpages, rfl⟩ := ih hlimit ht hden
      exact ⟨_, .more hnext hpages, by simp [hne]⟩

/-- Whatever tables the requests meet, reading pages to the end can be done by following the cursors. -/
theorem exists_listing (hJ : J.RoundTrip) (hlimit : q.limit < 2 ^ 63 - 1) (ht : Uuid.parse q.tenantID = some t)
    {place : Option (Int × String)} {ls pages : List (List Key)}
    (h : Pages (listedBefore q.isOrderByCreatedAtAsc) Key.position q.pageSize.toNat place ls pages) :
    ∀ dbs, ls = dbs.map (fun db : DB => db.matching fold q t) → ∀ cursor, Denotes J cursor place →
      ∃ answers, Listing fold J { q with cursor } dbs answers := by
  induction h with
  | @last place l hnone =>
    intro dbs hls cursor hplace
    obtain ⟨db, rfl, rfl⟩ := List.map_eq_singleton_iff.1 hls.symm
    rcases listKeys_cases (q := { q with cursor }) fold db hJ hlimit ht hplace with
      ⟨-, -, h⟩ | ⟨-, -, h⟩ | ⟨k, _, -, hnext, -, -⟩
    · exact ⟨_, .failed h⟩
    · exact ⟨_, .last h⟩
    · cases hnone.symm.trans hnext
  | @more place k l ls pages hsome hrun ih =>
    intro dbs hls cursor hplace
    obtain ⟨db, dbs, rfl, rfl, hrest⟩ := List.map_eq_cons_iff.1 hls.symm
    rcases listKeys_cases (q := { q with cursor }) fold db hJ hlimit ht hplace with
      ⟨-, hnext, -⟩ | ⟨-, hnext, -⟩ | ⟨k', cursor', -, hnext, h, hden⟩
    · cases hsome.symm.trans hnext
    · cases hsome.symm.trans hnext
    · obtain rfl : k = k' := Option.some.inj (hsome.symm.trans hnext)
      obtain ⟨answers, hanswers⟩ := ih dbs hrest.symm cursor' hden
      exact ⟨_, .more h hden.1 hanswers⟩

/-- What a client has read of a table that stays as it is: the matching keys, in order, in full pages. -/
structure ReadOnce (fold : Char → Char) (q : ListKeysQuery) (db : DB) (answers : List (List Key)) : Prop where
  mem : ∀ k, k ∈ answers.flatten ↔ k ∈ db.keys.rows ∧ q.Matches fold k
  once : answers.flatten.Nodup
  ordered : answers.flatten.Pairwise fun a b => listedBefore q.isOrderByCreatedAtAsc a.position b.position
  full : ∀ keys ∈ answers.dropLast, (keys.length : Int) = q.pageSize
  nonempty : ∀ keys ∈ answers, keys ≠ []

theorem mem_matching (ht : Uuid.parse q.tenantID = some t) {k : Key} :
    k ∈ db.matching fold q t ↔ k ∈ db.keys.rows ∧ q.Matches fold k := by
  rw [DB.matching, List.mem_filter, selects_iff ht]

/-- What is listed in order is listed once. -/
theorem nodup_of_listedBefore {asc : Bool} {keys : List Key}
    (h : keys.Pairwise fun a b => listedBefore asc a.position b.position) : (keys.map Key.position).Nodup := by
  refine List.pairwise_map.2 (h.imp fun {a b} hab heq => ?_)
  rw [heq] at hab
  exact irrefl_of (listedBefore asc) _ hab

theorem Listing.readOnce (hJ : J.RoundTrip) (hlimit : q.limit < 2 ^ 63 - 1) (ht : Uuid.parse q.tenantID = some t)
    (hcursor : q.cursor = "") {n : Nat} {answers : List (List Key)}
    (h : Listing fold J q (List.replicate n db) answers) : ReadOnce fold q db answers := by
  have hpos := q.pageSize_pos
  obtain ⟨pages, hpages, rfl⟩ := h.pages hJ hlimit ht (denotes_none hcursor)
  have hrem := pairwise_remaining (r := listedBefore q.isOrderByCreatedAtAsc) (c := none) (db.matching_nodup fold q t)
  obtain ⟨hflat, hfull, hne⟩ := hpages.flatten_eq (by omega) (db.matching_nodup fold q t) (by
    intro l hl
    obtain ⟨db', hdb', rfl⟩ := List.mem_map.1 hl
    rw [List.eq_of_mem_replicate hdb'])
  have hread : (pages.filter (· ≠ [])).flatten = pages.flatten := List.flatten_filter_ne_nil
  refine ⟨?_, ?_, ?_, ?_, ?_⟩
  · intro k
    rw [hread, hflat, mem_remaining, mem_matching ht]
    simp
  · rw [hread, hflat]
    exact .of_map _ (nodup_of_listedBefore hrem)
  · rw [hread, hflat]
    exact hrem
  · intro keys hkeys
    by_cases hnil : remaining (listedBefore q.isOrderByCreatedAtAsc) Key.position none (db.matching fold q t) = []
    · -- nothing matches, so there is no page with keys
      rw [hnil] at hflat
      have hempty : pages.filter (· ≠ []) = [] := by
        rw [List.filter_eq_nil_iff]
        intro p hp
        simpa using List.flatten_eq_nil_iff.1 hflat p hp
      rw [hempty] at hkeys
      cases hkeys
    · have hall : pages.filter (· ≠ []) = pages := List.filter_eq_self.2 fun p hp => by simpa using hne hnil p hp
      rw [hall] at hkeys
      have := hfull keys hkeys
      omega
  · intro keys hkeys
    simpa using (List.mem_filter.1 hkeys).2

theorem Listing.readAlways (hJ : J.RoundTrip) (hlimit : q.limit < 2 ^ 63 - 1) (ht : Uuid.parse q.tenantID = some t)
    (hcursor : q.cursor = "") {dbs : List DB} {answers : List (List Key)} (h : Listing fold J q dbs answers) :
    answers.flatten.Pairwise (fun a b => listedBefore q.isOrderByCreatedAtAsc a.position b.position) ∧
      ∀ id createdAt, (∀ db ∈ dbs, ∃ k ∈ db.keys.rows, k.id = id ∧ k.createdAt = createdAt ∧ q.Matches fold k) →
        (answers.flatten.map Key.id).count id = 1 := by
  have hpos := q.pageSize_pos
  obtain ⟨pages, hpages, rfl⟩ := h.pages hJ hlimit ht (denotes_none hcursor)
  have hnd : ∀ l ∈ dbs.map fun db => db.matching fold q t, (l.map Key.position).Nodup := by
    intro l hl
    obtain ⟨db, -, rfl⟩ := List.mem_map.1 hl
    exact db.matching_nodup fold q t
  obtain ⟨hpair, hfrom⟩ := hpages.pairwise (by omega) hnd
  rw [List.flatten_filter_ne_nil]
  refine ⟨hpair, fun id createdAt halways => ?_⟩
  have hread : (createdAt, id) ∈ pages.flatten.map Key.position := by
    refine List.mem_map.2 (hpages.mem_of_always (by omega) hnd (createdAt, id) ?_ nofun)
    intro l hl
    obtain ⟨db, hdb, rfl⟩ := List.mem_map.1 hl
    obtain ⟨k, hk, hid, hat, hm⟩ := halways db hdb
    exact ⟨k, (mem_matching ht).2 ⟨hk, hm⟩, by rw [Key.position, hid, hat]⟩
  -- where the identifier is stored at all, it is stored at this place
  have hplace : ∀ k ∈ pages.flatten, k.id = id ↔ k.position = (createdAt, id) := by
    intro k hk
    obtain ⟨⟨l, hl, hkl⟩, -⟩ := hfrom k hk
    obtain ⟨db, hdb, rfl⟩ := List.mem_map.1 hl
    obtain ⟨k', hk', hid', hat', -⟩ := halways db hdb
    constructor
    · intro hid
      rw [DB.key_eq_of_id ((mem_matching ht).1 hkl).1 hk' (hid.trans hid'.symm), Key.position, hid', hat']
    · exact fun hp => (Prod.mk.inj hp).2
  have hcount : (pages.flatten.map Key.id).count id = (pages.flatten.map Key.position).count (createdAt, id) := by
    simp only [List.count, List.countP_map]
    exact List.countP_congr fun k hk => by simpa using hplace k hk
  rw [hcount]
  exact List.count_eq_one_of_mem (nodup_of_listedBefore hpair) hread

theorem listKeys_of_invalid (ht : Uuid.parse q.tenantID = none) (hcursor : q.cursor = "") :
    db.listKeys fold J q = .error errUuidSyntax := by
  have hselect : ∀ n, db.selectKeys fold q none n = .error errUuidSyntax := by
    intro n
    unfold DB.selectKeys
    rw [ht]
  rw [DB.listKeys, bind_eq_of_ok (readCursor_eq (denotes_none hcursor))]
  simp only [Option.map_none, hselect]
  rfl

/-- Where the tenant is no identifier, the first request fails. -/
theorem Listing.of_invalid (ht : Uuid.parse q.tenantID = none) (hcursor : q.cursor = "") {dbs : List DB}
    {answers : List (List Key)} (h : Listing fold J q dbs answers) : answers = [] ∧ dbs ≠ [] := by
  cases h with
  | last hok => rw [listKeys_of_invalid ht hcursor] at hok; cases hok
  | failed => exact ⟨rfl, List.cons_ne_nil _ _⟩
  | more hok => rw [listKeys_of_invalid ht hcursor] at hok; cases hok

theorem not_matches_of_invalid (ht : Uuid.parse q.tenantID = none) {k : Key} (hk : k ∈ db.keys.rows) :
    ¬ q.Matches fold k := by
  intro hm
  rw [Uuid.parse_eq_some (u := ⟨k.tenantID, (DB.key_canonical hk).2⟩).2 hm.tenantID] at ht
  cases ht

/-- **Listing is complete and without duplicates.** Following the cursors of a table that stays as it is comes to an end
and has then read exactly the matching keys, each once and in order, in full pages that are not empty. When the table is
another one at each request, the keys still come in order, and a key that is stored at the same place and matches at
every request is read once. -/
theorem listKeys_pages (fold : Char → Char) (J : CursorJson) (hJ : J.RoundTrip) (q : ListKeysQuery)
    (hcursor : q.cursor = "") (hlimit : q.limit < 2 ^ 63 - 1) :
    (∀ db : DB, (∃ n answers, Listing fold J q (List.replicate n db) answers) ∧
      ∀ n answers, Listing fold J q (List.replicate n db) answers → ReadOnce fold q db answers) ∧
    ∀ dbs answers, Listing fold J q dbs answers →
      answers.flatten.Pairwise (fun a b => listedBefore q.isOrderByCreatedAtAsc a.position b.position) ∧
      ∀ id createdAt, (∀ db ∈ dbs, ∃ k ∈ db.keys.rows, k.id = id ∧ k.createdAt = createdAt ∧ q.Matches fold k) →
        (answers.flatten.map Key.id).count id = 1 := by
  have hpos := q.pageSize_pos
  cases ht : Uuid.parse q.tenantID with
  | some t =>
    refine ⟨fun db => ⟨?_, fun n answers h => h.readOnce hJ hlimit ht hcursor⟩,
      fun dbs answers h => h.readAlways hJ hlimit ht hcursor⟩
    obtain ⟨n, pages, hpages⟩ := exists_pages (r := listedBefore q.isOrderByCreatedAtAsc) (n := q.pageSize.toNat)
      (by omega) (db.matching_nodup fold q t) none
    have htables : List.replicate n (db.matching fold q t) =
        (List.replicate n db).map fun db => db.matching fold q t := by rw [List.map_replicate]
    obtain ⟨answers, h⟩ := exists_listing hJ hlimit ht hpages _ htables q.cursor hcursor
    exact ⟨n, answers, h⟩
  | none =>
    refine ⟨fun db => ⟨⟨1, [], .failed (listKeys_of_invalid ht hcursor)⟩, fun n answers h => ?_⟩,
      fun dbs answers h => ?_⟩
    · rw [(h.of_invalid ht hcursor).1]
      refine ⟨fun k => ?_, List.nodup_nil, .nil, nofun, nofun⟩
      simp only [List.flatten_nil, List.not_mem_nil, false_iff, not_and]
      exact fun hk => not_matches_of_invalid ht hk
    · obtain ⟨rfl, hne⟩ := h.of_invalid ht hcursor
      refine ⟨.nil, fun id createdAt halways => ?_⟩
      obtain ⟨db, hdb⟩ := List.exists_mem_of_ne_nil dbs hne
      obtain ⟨k, hk, -, -, hm⟩ := halways db hdb
      exact absurd hm (not_matches_of_invalid ht hk)

end

/-- A character that stands for itself in a JSON text. -/
def plainInJson (c : Char) : Bool := c ≠ '"' && c ≠ '\\' && ' ' ≤ c

/-- Read the JSON of a cursor, written without blanks and escapes. -/
def readPlainJson (b : Bytes) : Option Cursor := do
  let text ← String.fromUTF8? ⟨b.toArray⟩
  let rest ← text.toList.dropPrefix? "\x7b\"id\":\"".toList
  let id := rest.takeWhile plainInJson
  let rest ← (rest.dropWhile plainInJson).dropPrefix? "\",\"created_at\":".toList
  let createdAt ← (String.ofList rest.dropLast).toInt?
  if rest.getLast? = some '\x7d' then return ⟨String.ofList id, createdAt⟩ else none

/-- The JSON of cursors whose identifiers need no escape. -/
def plainJson : CursorJson where
  marshal c :=
    if c.id.toList.all plainInJson then
      .ok (utf8 ("\x7b\"id\":\"" ++ c.id ++ "\",\"created_at\":" ++ c.createdAt.repr ++ "\x7d"))
    else .error (.plain "json: unsupported value")
  unmarshal b := (readPlainJson b).elim (.error (.plain "json: cannot unmarshal")) .ok

theorem dropPrefix_append (p cs : List Char) : (p ++ cs).dropPrefix? p = some cs :=
  List.dropPrefix?_eq_some_iff.2 ⟨p, rfl, beq_self_eq_true p⟩

theorem plain_of_canonical {id : String} (h : Canonical id) : id.toList.all plainInJson = true := by
  have hall : (uuidBytes.all fun b => plainInJson (Char.ofNat b.toNat)) = true := by decide
  obtain ⟨ds, hds, rfl⟩ := uuidIn_digits h
  obtain ⟨hbytes, hmem⟩ := utf8_uuidText hds
  rw [uuidText, ascii, String.toList_ofList, List.all_map, List.all_eq_true]
  rw [hbytes] at hmem
  exact fun b hb => List.all_eq_true.1 hall b (hmem b hb)

theorem plainJson_roundTrip : plainJson.RoundTrip := by
  intro c hc
  obtain ⟨id, createdAt⟩ := c
  have hplain : ∀ ch ∈ id.toList, plainInJson ch = true := List.all_eq_true.1 (plain_of_canonical hc)
  have htext : ∀ s : String, String.fromUTF8? ⟨(utf8 s).toArray⟩ = some s := by
    intro s
    exact dif_pos s.isValidUTF8
  -- the identifier ends at the quote after it
  have hsplit : ∀ rest : List Char,
      (id.toList ++ ("\",\"created_at\":".toList ++ rest)).takeWhile plainInJson = id.toList ∧
        (id.toList ++ ("\",\"created_at\":".toList ++ rest)).dropWhile plainInJson =
          "\",\"created_at\":".toList ++ rest := by
    intro rest
    rw [List.takeWhile_append_of_pos hplain, List.dropWhile_append_of_pos hplain]
    simp [plainInJson]
  have hread : readPlainJson (utf8 ("\x7b\"id\":\"" ++ id ++ "\",\"created_at\":" ++ createdAt.repr ++ "\x7d")) =
      some ⟨id, createdAt⟩ := by
    have hlist : ("\x7b\"id\":\"" ++ id ++ "\",\"created_at\":" ++ createdAt.repr ++ "\x7d").toList =
        "\x7b\"id\":\"".toList ++
          (id.toList ++ ("\",\"created_at\":".toList ++ (createdAt.repr.toList ++ ['\x7d']))) := by
      simp [String.toList_append]
    simp only [readPlainJson, htext, hlist, Option.bind_eq_bind, Option.bind_some, dropPrefix_append, (hsplit _).1,
      (hsplit _).2, List.dropLast_concat, List.getLast?_concat, String.ofList_toList, Int.toInt?_repr, if_true]
    rfl
  refine ⟨_, if_pos (plain_of_canonical hc), ?_, ?_⟩
  · intro hnil
    rw [hnil] at hread
    cases hread
  · simp only [plainJson, hread, Option.elim_some]

def demoTenantKey (id : Uuid) : Key := newKey id 5 "00000000-0000-4000-8000-000000000000" id.text "kek" none "root" []

def demoFirst : Key := demoTenantKey ⟨"00000000-0000-4000-8000-00000000000a", by decide⟩

def demoSecond : Key := demoTenantKey ⟨"00000000-0000-4000-8000-00000000000b", by decide⟩

/-- Two keys of one time. -/
def demoListed : DB :=
  { DB.empty .root with keys := ⟨[demoFirst, demoSecond], by decide, by unfold keySchema Canonical; decide⟩ }

/-- One key a page, the newest first. -/
def demoListQuery : ListKeysQuery where
  tenantID := "00000000-0000-4000-8000-000000000000"
  name := "-8000-00000000000"
  kind := "kek"
  lifeCycleState := "pre-activation"
  managedBy := ""
  labels := []
  isOrderByCreatedAtAsc := false
  cursor := ""
  limit := 1

theorem listKeys_pages_demo :
    ∃ n answers, Listing Char.toLower plainJson demoListQuery (List.replicate n demoListed) answers ∧
      ReadOnce Char.toLower demoListQuery demoListed answers ∧
      ∀ k ∈ [demoFirst, demoSecond], (answers.flatten.map Key.id).count k.id = 1 := by
  obtain ⟨hfixed, hchanging⟩ :=
    listKeys_pages Char.toLower plainJson plainJson_roundTrip demoListQuery rfl (by decide)
  obtain ⟨⟨n, answers, h⟩, hread⟩ := hfixed demoListed
  refine ⟨n, answers, h, hread n answers h, ?_⟩
  intro k hk
  refine (hchanging _ answers h).2 k.id k.createdAt ?_
  intro db hdb
  rw [List.eq_of_mem_replicate hdb]
  refine ⟨k, hk, rfl, rfl, ?_⟩
  simp only [List.mem_cons, List.not_mem_nil, or_false] at hk
  rcases hk with rfl | rfl
  · exact ⟨by decide, by decide, by decide, by decide, by decide, by decide⟩
  · exact ⟨by decide, by decide, by decide, by decide, by decide, by decide⟩

end Krypton
