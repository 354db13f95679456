import Summoners.Cceroby.Paging

/-! # Paging to the end

A server that answers with the slice a request asks for is read to the end: each page of a provider
stands at the position of its cursor, so following the cursors enumerates the results.
-/

namespace Summoners.Cceroby
set_option autoImplicit false

open Checked

/-- The page of a cursor, as `search_one` reads it from a server. -/
def Provider.fetch (provider : Provider) (serve : HttpRequest → List UInt8) (query : SearchQuery)
    (cursor : Option String) : Option ProviderSearchPage :=
  match provider.validateSearchCursor cursor with
  | .error _ => none
  | .ok _ =>
      match provider.parseSearch (serve (provider.searchRequest query cursor)) cursor with
      | .ok (.ok page) => some page
      | _ => none

/-- The request has the number in the field of that name. -/
def HttpRequest.Asks (request : HttpRequest) (name : String) (n : ℕ) : Prop :=
  (name, some (toString n)) ∈ request.pairs

/-- A provider that pages by number, with its endpoint and the reader of its responses. -/
inductive PagedProvider
  | aic (endpoint : List (String × Option String)) (decode : List UInt8 → Option Aic.Response)
  | cleveland (endpoint : List (String × Option String))
      (decode : List UInt8 → Option Cleveland.Response)
  | met (endpoint : List (String × Option String)) (decode : List UInt8 → Option Met.Response)
  | smithsonian (arrayText : List String → String) (endpoint : List (String × Option String))
      (decode : List UInt8 → Option Smithsonian.Response)

namespace PagedProvider

def provider : PagedProvider → Provider
  | aic endpoint decode => Aic.provider endpoint decode
  | cleveland endpoint decode => Cleveland.provider endpoint decode
  | met endpoint decode => Met.provider endpoint decode
  | smithsonian arrayText endpoint decode => Smithsonian.provider arrayText endpoint decode

/-- The server answers every request of the search with the slice that it asks for, the echo of the
position and the true total. The Met sends the numbers of all objects. -/
def Answers (serve : HttpRequest → List UInt8) (query : SearchQuery) (results : List JsonValue) :
    PagedProvider → Prop
  | aic endpoint decode => ∀ cursor page limit,
      let request := Aic.searchRequest endpoint query cursor
      request.Asks "page" page → request.Asks "limit" limit → 1 ≤ page →
      ∃ response, decode (serve request) = some response ∧
        (nonempty response.iiifUrl).isSome ∧
        response.currentPage.toNat = page ∧
        response.totalPages.toNat = (results.length + limit - 1) / limit ∧
        response.data.toList = (results.drop (limit * (page - 1))).take limit
  | cleveland endpoint decode => ∀ cursor skip limit,
      let request := Cleveland.searchRequest endpoint query cursor
      request.Asks "skip" skip → request.Asks "limit" limit →
      ∃ response, decode (serve request) = some response ∧
        (∃ echo, (JsonValue.object response.parameters).get "skip" = some echo ∧
          (echo = .nat skip ∨ echo = .string (toString skip))) ∧
        response.total.toNat = results.length ∧
        response.data.toList = (results.drop skip).take limit
  | met endpoint decode => ∀ cursor,
      ∃ response, decode (serve (Met.searchRequest endpoint query cursor)) = some response ∧
        (Met.objectIds response).map (fun id => .nat id.toNat) = results
  | smithsonian arrayText endpoint decode => ∀ cursor start rows,
      let request := Smithsonian.searchRequest arrayText endpoint query cursor
      request.Asks "start" start → request.Asks "rows" rows →
      ∃ response, decode (serve request) = some response ∧
        response.rowCount.toNat = results.length ∧
        response.rows.toList = (results.drop start).take rows

end PagedProvider

/-! ## No response stops the parser -/

theorem addU32_one {a b : UInt32} (h : a < b) : addU32 a 1 = .ok (a + 1) := by
  unfold addU32
  refine if_pos ?_
  have hlt : a.toNat < b.toNat := h
  have hbound := b.toNat_lt
  show a.toNat + 1 ≤ u32Max
  unfold u32Max
  omega

theorem Aic.nextCursor_eq (currentPage totalPages : UInt32) :
    nextCursor currentPage totalPages = .ok
      (if currentPage.toNat < totalPages.toNat then some (toString (currentPage.toNat + 1))
        else none) := by
  unfold nextCursor
  by_cases h : currentPage < totalPages
  · have hlt : currentPage.toNat < totalPages.toNat := h
    have hbound := totalPages.toNat_lt
    have hnext : (currentPage + 1).toNat = currentPage.toNat + 1 := by
      rw [UInt32.toNat_add]
      exact Nat.mod_eq_of_lt (by show currentPage.toNat + 1 < 2 ^ 32; omega)
    rw [if_pos h, if_pos hlt, addU32_one h, ← hnext]
    rfl
  · have hle : ¬currentPage.toNat < totalPages.toNat := h
    rw [if_neg h, if_neg hle]
    rfl

theorem Met.short_objectIds (response : Response) : (objectIds response).length ≤ usizeMax := by
  unfold objectIds
  cases response.objectIds with
  | none => exact Nat.zero_le _
  | some ids => exact ids.short

theorem sliceOf_page {α : Type} {items : List α} {offset : ℕ} (hshort : items.length ≤ usizeMax)
    (h : offset < items.length) :
    sliceOf items offset (min (saturatingAdd offset pageSize) items.length) =
      .ok ((items.drop offset).take pageSize) := by
  have hstop : min (saturatingAdd offset pageSize) items.length =
      min (offset + pageSize) items.length := by
    unfold saturatingAdd
    omega
  unfold sliceOf
  rw [hstop, if_pos ⟨by omega, Nat.min_le_right _ _⟩]
  congr 1
  by_cases hfull : offset + pageSize ≤ items.length
  · rw [Nat.min_eq_left hfull, Nat.add_sub_cancel_left]
  · rw [Nat.min_eq_right (by omega), List.take_of_length_le (by rw [List.length_drop]),
      List.take_of_length_le (by rw [List.length_drop]; omega)]

/-- The page of the Met at an offset, whatever the length of the list. -/
theorem Met.parseSearch_eq {decode : List UInt8 → Option Response} {bytes : List UInt8}
    {response : Response} {cursor : Option String} {offset : ℕ}
    (hdecode : decode bytes = some response) (hcursor : parseOffset cursor = .ok offset) :
    parseSearch decode bytes cursor = .ok (.ok
      ⟨candidates ((((objectIds response).drop offset).take pageSize).map (fun id => .nat id.toNat))
          none,
        if offset + pageSize < (objectIds response).length then some (toString (offset + pageSize))
        else none⟩) := by
  have hshort := short_objectIds response
  unfold parseSearch
  rw [hdecode, hcursor]
  dsimp only
  by_cases hend : (objectIds response).length ≤ offset
  · rw [if_pos hend, if_neg (by omega), List.drop_eq_nil_of_le hend]
    rfl
  · rw [if_neg hend, sliceOf_page hshort (not_le.mp hend)]
    show Except.ok (Except.ok (ProviderSearchPage.mk _ _)) = _
    by_cases hmore : offset + pageSize < (objectIds response).length
    · have hstop : min (saturatingAdd offset pageSize) (objectIds response).length =
          offset + pageSize := by
        unfold saturatingAdd
        omega
      rw [hstop, if_pos hmore]
    · have hstop : min (saturatingAdd offset pageSize) (objectIds response).length =
          (objectIds response).length := by
        unfold saturatingAdd
        omega
      rw [hstop, if_neg (lt_irrefl _), if_neg hmore]

theorem parseSearch_returns (p : PagedProvider) (bytes : List UInt8) (cursor : Option String) :
    ∃ result, p.provider.parseSearch bytes cursor = .ok result := by
  cases p with
  | aic endpoint decode =>
    show ∃ result, Aic.parseSearch decode bytes = .ok result
    unfold Aic.parseSearch
    split
    · exact ⟨_, rfl⟩
    · split
      · exact ⟨_, rfl⟩
      · rw [Aic.nextCursor_eq]
        exact ⟨_, rfl⟩
  | cleveland endpoint decode =>
    show ∃ result, Cleveland.parseSearch decode bytes = .ok result
    unfold Cleveland.parseSearch
    split <;> exact ⟨_, rfl⟩
  | met endpoint decode =>
    show ∃ result, Met.parseSearch decode bytes cursor = .ok result
    cases hdecode : decode bytes with
    | none => exact ⟨_, by unfold Met.parseSearch; rw [hdecode]⟩
    | some response =>
      cases hcursor : parseOffset cursor with
      | error e => exact ⟨_, by unfold Met.parseSearch; rw [hdecode, hcursor]⟩
      | ok offset => exact ⟨_, Met.parseSearch_eq hdecode hcursor⟩
  | smithsonian arrayText endpoint decode =>
    show ∃ result, Smithsonian.parseSearch decode bytes cursor = .ok result
    unfold Smithsonian.parseSearch
    split
    · exact ⟨_, rfl⟩
    · split <;> exact ⟨_, rfl⟩

/-! ## Cursors stand for positions -/

theorem parseOffset_toString {n : ℕ} (h : n ≤ usizeMax) : parseOffset (some (toString n)) = .ok n := by
  have hdigits : (bytesOf (toString n)).all (fun byte => 48 ≤ byte && byte ≤ 57) = true := by
    have hascii : ∀ c ∈ (toString n).toList, c.toNat < 128 := by
      intro c hc
      have hdigit := mem_toString_digit hc
      simp only [Char.isDigit, Bool.and_eq_true, decide_eq_true_eq] at hdigit
      have hle : c.toNat ≤ 57 := hdigit.2
      omega
    rw [bytesOf_ascii hascii, List.all_map, List.all_eq_true]
    intro c hc
    have hdigit := mem_toString_digit hc
    simp only [Char.isDigit, Bool.and_eq_true, decide_eq_true_eq] at hdigit
    have hbyte := toNat_toUInt8 (hascii c hc)
    simp only [Function.comp_apply, Bool.and_eq_true, decide_eq_true_eq, UInt8.le_iff_toNat_le,
      hbyte]
    exact hdigit
  have hne : (toString n).isEmpty = false := by
    rw [Nat.toString_eq_repr]
    simp
  unfold parseOffset
  dsimp only
  rw [hdigits, hne, parseUnsigned_toString, if_pos h]
  rfl

/-- A cursor that spells a number, or no cursor for the first page. -/
def Spells (first max : ℕ) (cursor : Option String) (n : ℕ) : Prop :=
  n ≤ max ∧ ((cursor = none ∧ n = first) ∨ cursor = some (toString n))

theorem Spells.parse {first max n : ℕ} {cursor : Option String} (h : Spells first max cursor n) :
    (cursor.bind (parseUnsigned max)).getD first = n := by
  obtain ⟨hmax, ⟨rfl, rfl⟩ | rfl⟩ := h
  · rfl
  · rw [Option.bind_some, parseUnsigned_toString, if_pos hmax, Option.getD_some]

theorem Spells.offset {n : ℕ} {cursor : Option String} (h : Spells 0 usizeMax cursor n) :
    parseOffset cursor = .ok n := by
  obtain ⟨hmax, ⟨rfl, rfl⟩ | rfl⟩ := h
  · rfl
  · exact parseOffset_toString hmax

/-! ## Each page stands at the position of its cursor -/

/-- The results of a page. -/
def ProviderSearchPage.results (page : ProviderSearchPage) : List JsonValue :=
  page.candidates.map ProviderCandidate.raw

theorem results_candidates (rows : List JsonValue) (context : Option String) (next : Option String) :
    (ProviderSearchPage.mk (candidates rows context) next).results = rows := by
  unfold ProviderSearchPage.results candidates
  rw [List.map_map]
  exact List.map_id rows

/-- The position that a cursor of the provider stands for. -/
def PagedProvider.At (p : PagedProvider) (cursor : Option String) (k : ℕ) : Prop :=
  match p with
  | .aic _ _ => ∃ page, Spells 1 u32Max cursor page ∧ 1 ≤ page ∧ k = pageSize * (page - 1)
  | .cleveland _ _ => Spells 0 u64Max cursor k
  | .met _ _ => Spells 0 usizeMax cursor k
  | .smithsonian _ _ _ => Spells 0 usizeMax cursor k

section
variable {serve : HttpRequest → List UInt8} {query : SearchQuery} {results : List JsonValue}
  {cursor : Option String} {k : ℕ} {endpoint : List (String × Option String)}

theorem Provider.fetch_eq {provider : Provider} {page : ProviderSearchPage}
    (hvalid : provider.validateSearchCursor cursor = .ok ())
    (hparse : provider.parseSearch (serve (provider.searchRequest query cursor)) cursor =
      .ok (.ok page)) : provider.fetch serve query cursor = some page := by
  unfold Provider.fetch
  rw [hvalid, hparse]

/-- The length of the slice at a position. -/
theorem length_slice (l : List JsonValue) (k : ℕ) :
    ((l.drop k).take pageSize).length = min pageSize (l.length - k) := by
  rw [List.length_take, List.length_drop]

theorem Aic.pageAt {decode : List UInt8 → Option Response}
    (h : (PagedProvider.aic endpoint decode).Answers serve query results)
    (hat : (PagedProvider.aic endpoint decode).At cursor k) :
    ∃ page, (provider endpoint decode).fetch serve query cursor = some page ∧
      PageAt ProviderSearchPage.results ProviderSearchPage.nextCursor
        (PagedProvider.aic endpoint decode).At results pageSize k page := by
  obtain ⟨page, hcursor, hfirst, rfl⟩ := hat
  have hpage : (searchRequest endpoint query cursor).Asks "page" page := by
    simp [HttpRequest.Asks, HttpRequest.pairs, searchRequest, hcursor.parse]
  have hlimit : (searchRequest endpoint query cursor).Asks "limit" pageSize := by
    have htext : toString pageSize = "20" := by decide
    simp [HttpRequest.Asks, HttpRequest.pairs, searchRequest, htext]
  obtain ⟨response, hdecode, himage, hcurrent, htotal, hdata⟩ :=
    h cursor page pageSize hpage hlimit hfirst
  obtain ⟨imageBase, himage⟩ := Option.isSome_iff_exists.mp himage
  have hparse : parseSearch decode (serve (searchRequest endpoint query cursor)) = .ok (.ok
      ⟨candidates ((results.drop (pageSize * (page - 1))).take pageSize) (some imageBase),
        if page < (results.length + pageSize - 1) / pageSize then some (toString (page + 1))
        else none⟩) := by
    unfold parseSearch
    rw [hdecode]
    dsimp only
    rw [himage]
    dsimp only
    rw [nextCursor_eq, hcurrent, htotal, hdata]
    rfl
  have hbound := response.totalPages.toNat_lt
  rw [htotal] at hbound
  refine ⟨_, Provider.fetch_eq rfl hparse, results_candidates _ _ _, ?_, ?_⟩
  · intro hend
    refine if_neg ?_
    unfold pageSize at *
    omega
  · intro hmore
    have hlt : page < (results.length + pageSize - 1) / pageSize := by
      unfold pageSize at *
      omega
    refine ⟨toString (page + 1), if_pos hlt, page + 1, ⟨?_, .inr rfl⟩, by omega, ?_⟩
    · unfold u32Max
      omega
    · unfold pageSize
      omega

theorem Cleveland.pageAt {decode : List UInt8 → Option Response}
    (h : (PagedProvider.cleveland endpoint decode).Answers serve query results)
    (hat : (PagedProvider.cleveland endpoint decode).At cursor k) :
    ∃ page, (provider endpoint decode).fetch serve query cursor = some page ∧
      PageAt ProviderSearchPage.results ProviderSearchPage.nextCursor
        (PagedProvider.cleveland endpoint decode).At results pageSize k page := by
  have hcursor : Spells 0 u64Max cursor k := hat
  have hskip : (searchRequest endpoint query cursor).Asks "skip" k := by
    simp [HttpRequest.Asks, HttpRequest.pairs, searchRequest, hcursor.parse]
  have hlimit : (searchRequest endpoint query cursor).Asks "limit" pageSize := by
    simp [HttpRequest.Asks, HttpRequest.pairs, searchRequest]
  obtain ⟨response, hdecode, ⟨echo, hecho, hvalue⟩, htotal, hdata⟩ :=
    h cursor k pageSize hskip hlimit
  have hread : jsonU64 echo = some k := by
    obtain rfl | rfl := hvalue
    · rfl
    · show parseUnsigned u64Max (toString k) = some k
      rw [parseUnsigned_toString, if_pos hcursor.1]
  have hparse : parseSearch decode (serve (searchRequest endpoint query cursor)) = .ok (.ok
      ⟨candidates ((results.drop k).take pageSize) none,
        nextCursor k (min pageSize (results.length - k)) results.length⟩) := by
    unfold parseSearch
    rw [hdecode]
    dsimp only
    rw [hecho, Option.bind_some, hread, Option.getD_some, hdata, htotal, length_slice]
  have hbound := response.total.toNat_lt
  rw [htotal] at hbound
  refine ⟨_, Provider.fetch_eq rfl hparse, results_candidates _ _ _, ?_, ?_⟩
  · intro hend
    refine if_neg ?_
    omega
  · intro hmore
    have hfull : min pageSize (results.length - k) = pageSize := by omega
    have hroom : k + pageSize ≤ u64Max := by
      unfold u64Max
      omega
    refine ⟨toString (k + pageSize), ?_, hroom, .inr rfl⟩
    show nextCursor k (min pageSize (results.length - k)) results.length = _
    rw [hfull]
    exact if_pos ⟨hroom, by decide, hmore⟩

theorem Met.pageAt {decode : List UInt8 → Option Response}
    (h : (PagedProvider.met endpoint decode).Answers serve query results)
    (hat : (PagedProvider.met endpoint decode).At cursor k) :
    ∃ page, (provider endpoint decode).fetch serve query cursor = some page ∧
      PageAt ProviderSearchPage.results ProviderSearchPage.nextCursor
        (PagedProvider.met endpoint decode).At results pageSize k page := by
  have hcursor : Spells 0 usizeMax cursor k := hat
  obtain ⟨response, hdecode, rfl⟩ := h cursor
  have hshort := short_objectIds response
  have hvalid : (provider endpoint decode).validateSearchCursor cursor = .ok () := by
    show (parseOffset cursor).map _ = _
    rw [hcursor.offset]
    rfl
  refine ⟨_, Provider.fetch_eq hvalid (parseSearch_eq hdecode hcursor.offset), ?_, ?_, ?_⟩
  · rw [results_candidates, List.map_take, List.map_drop]
  · intro hend
    rw [List.length_map] at hend
    exact if_neg (by omega)
  · intro hmore
    rw [List.length_map] at hmore
    exact ⟨toString (k + pageSize), if_pos hmore, by omega, .inr rfl⟩

theorem Smithsonian.pageAt {arrayText : List String → String} {decode : List UInt8 → Option Response}
    (h : (PagedProvider.smithsonian arrayText endpoint decode).Answers serve query results)
    (hat : (PagedProvider.smithsonian arrayText endpoint decode).At cursor k) :
    ∃ page, (provider arrayText endpoint decode).fetch serve query cursor = some page ∧
      PageAt ProviderSearchPage.results ProviderSearchPage.nextCursor
        (PagedProvider.smithsonian arrayText endpoint decode).At results pageSize k page := by
  have hcursor : Spells 0 usizeMax cursor k := hat
  have hstart : (searchRequest arrayText endpoint query cursor).Asks "start" k := by
    simp [HttpRequest.Asks, HttpRequest.pairs, searchRequest, hcursor.offset]
  have hrows : (searchRequest arrayText endpoint query cursor).Asks "rows" pageSize := by
    simp [HttpRequest.Asks, HttpRequest.pairs, searchRequest]
  obtain ⟨response, hdecode, htotal, hdata⟩ := h cursor k pageSize hstart hrows
  have hvalid : (provider arrayText endpoint decode).validateSearchCursor cursor = .ok () := by
    show (parseOffset cursor).map _ = _
    rw [hcursor.offset]
    rfl
  have hparse : parseSearch decode (serve (searchRequest arrayText endpoint query cursor)) cursor =
      .ok (.ok ⟨candidates ((results.drop k).take pageSize) none,
        if !((results.drop k).take pageSize).isEmpty &&
            saturatingAdd k (min pageSize (results.length - k)) < results.length then
          some (toString (saturatingAdd k (min pageSize (results.length - k))))
        else none⟩) := by
    unfold parseSearch
    rw [hdecode, hcursor.offset]
    dsimp only
    rw [hdata, htotal, length_slice]
  have hbound := response.rowCount.toNat_lt
  rw [htotal] at hbound
  refine ⟨_, Provider.fetch_eq hvalid hparse, results_candidates _ _ _, ?_, ?_⟩
  · intro hend
    refine if_neg ?_
    rw [Bool.and_eq_true, decide_eq_true_eq]
    rintro ⟨hsome, hless⟩
    have hne : ((results.drop k).take pageSize).length ≠ 0 := by
      intro hzero
      rw [List.length_eq_zero_iff] at hzero
      rw [hzero] at hsome
      cases hsome
    rw [length_slice] at hne
    unfold saturatingAdd usizeMax u64Max at hless
    omega
  · intro hmore
    have hnext : saturatingAdd k (min pageSize (results.length - k)) = k + pageSize := by
      unfold saturatingAdd usizeMax u64Max
      omega
    have hsome : (!((results.drop k).take pageSize).isEmpty) = true := by
      rw [Bool.not_eq_true', List.isEmpty_eq_false_iff]
      intro hempty
      have hzero := length_slice results k
      rw [hempty] at hzero
      unfold pageSize at *
      simp at hzero
      omega
    refine ⟨toString (k + pageSize), ?_, ?_, .inr rfl⟩
    · dsimp only
      rw [hnext, hsome, if_pos (by simpa using hmore)]
    · unfold usizeMax u64Max
      omega

end

/-! ## To the end -/

theorem PagedProvider.pageAt {p : PagedProvider} {serve : HttpRequest → List UInt8}
    {query : SearchQuery} {results : List JsonValue} (h : p.Answers serve query results)
    (cursor : Option String) (k : ℕ) (hat : p.At cursor k) :
    ∃ page, p.provider.fetch serve query cursor = some page ∧
      PageAt ProviderSearchPage.results ProviderSearchPage.nextCursor p.At results pageSize k page := by
  cases p with
  | aic endpoint decode => exact Aic.pageAt h hat
  | cleveland endpoint decode => exact Cleveland.pageAt h hat
  | met endpoint decode => exact Met.pageAt h hat
  | smithsonian arrayText endpoint decode => exact Smithsonian.pageAt h hat

theorem PagedProvider.at_first (p : PagedProvider) : p.At none 0 := by
  have hspells : ∀ {first max : ℕ}, first ≤ max → Spells first max none first :=
    fun h => ⟨h, .inl ⟨rfl, rfl⟩⟩
  cases p with
  | aic endpoint decode => exact ⟨1, hspells (by decide), le_refl 1, rfl⟩
  | cleveland endpoint decode => exact hspells (Nat.zero_le _)
  | met endpoint decode => exact hspells (Nat.zero_le _)
  | smithsonian arrayText endpoint decode => exact hspells (Nat.zero_le _)

/-- From a server that answers truly, following the cursors reads every result once, in order and in
pages of at most twenty, and comes to an end; no response to any cursor stops the parser. -/
theorem paging_enumerates (p : PagedProvider) :
    (∀ (serve : HttpRequest → List UInt8) (query : SearchQuery) (results : List JsonValue),
      p.Answers serve query results →
      ∃ pages, Followed (p.provider.fetch serve query) ProviderSearchPage.nextCursor none pages ∧
        (∀ pages', Followed (p.provider.fetch serve query) ProviderSearchPage.nextCursor none pages' →
          pages' = pages) ∧
        pages.flatMap ProviderSearchPage.results = results ∧
        ∀ page ∈ pages, page.candidates.length ≤ 20) ∧
    ∀ (bytes : List UInt8) (cursor : Option String),
      p.provider.validateSearchCursor cursor = .ok () →
      ∃ result, p.provider.parseSearch bytes cursor = .ok result := by
  refine ⟨fun serve query results h => ?_, fun bytes cursor _ => parseSearch_returns p bytes cursor⟩
  obtain ⟨pages, hpages, hflat, hshort⟩ :=
    exists_followed (by decide : 0 < pageSize) (PagedProvider.pageAt h) p.at_first
  refine ⟨pages, hpages, fun pages' hpages' => hpages'.unique hpages, ?_, fun page hpage => ?_⟩
  · rw [hflat, List.drop_zero]
  · have hlength := hshort page hpage
    unfold ProviderSearchPage.results at hlength
    rwa [List.length_map] at hlength

/-! ## A museum of forty-five works -/

def fortyFive : List JsonValue := (List.range 45).map JsonValue.nat

/-- The bytes of a response spell the offset that was asked for. -/
def echoServer (request : HttpRequest) : List UInt8 :=
  match request.pairs.find? (fun pair => pair.1 = "skip") with
  | some (_, some text) => bytesOf text
  | _ => []

def echoDecode (bytes : List UInt8) : Option Cleveland.Response :=
  ((fromUtf8 bytes).bind (parseUnsigned u64Max)).map (fun skip =>
    { total := 45
      parameters := [("skip", .string (toString skip))]
      data :=
        { toList := (fortyFive.drop skip).take 20
          short := (List.length_take_le _ _).trans (by decide) } })

theorem lion_nonempty : "lion" ≠ "" := by decide

def worksQuery : SearchQuery :=
  ⟨⟨"lion", lion_nonempty⟩, ⟨[.clevelandMuseum], by decide, by decide⟩, none⟩

theorem toString_injective {m n : ℕ} (h : toString m = toString n) : m = n := by
  have hm := @parseUnsigned_toString (max m n) m
  rw [h, parseUnsigned_toString, if_pos (le_max_right m n), if_pos (le_max_left m n)] at hm
  exact (Option.some.inj hm).symm

theorem echoServer_answers :
    (PagedProvider.cleveland [] echoDecode).Answers echoServer worksQuery fortyFive := by
  intro cursor skip limit request hskip hlimit
  have hbound : (cursor.bind (parseUnsigned u64Max)).getD 0 ≤ u64Max := by
    cases hparsed : cursor.bind (parseUnsigned u64Max) with
    | none => exact Nat.zero_le _
    | some n =>
      obtain ⟨text, -, htext⟩ := Option.bind_eq_some_iff.mp hparsed
      exact parseUnsigned_le htext
  have hserve : echoServer request =
      bytesOf (toString ((cursor.bind (parseUnsigned u64Max)).getD 0)) := rfl
  have hskip : skip = (cursor.bind (parseUnsigned u64Max)).getD 0 := by
    apply toString_injective
    simpa [HttpRequest.Asks, HttpRequest.pairs, request, Cleveland.searchRequest, worksQuery]
      using hskip
  have hlimit : limit = 20 := by
    apply toString_injective
    simpa [HttpRequest.Asks, HttpRequest.pairs, request, Cleveland.searchRequest, worksQuery, pageSize]
      using hlimit
  rw [← hskip] at hbound hserve
  have hread : (fromUtf8 (echoServer request)).bind (parseUnsigned u64Max) = some skip := by
    rw [hserve, fromUtf8_bytesOf, Option.bind_some, parseUnsigned_toString, if_pos hbound]
  refine ⟨_, by unfold echoDecode; rw [hread]; rfl, ⟨_, rfl, .inr rfl⟩, rfl, ?_⟩
  rw [hlimit]

theorem paging_enumerates_works :
    ∃ pages, Followed ((PagedProvider.cleveland [] echoDecode).provider.fetch echoServer worksQuery)
        ProviderSearchPage.nextCursor none pages ∧
      pages.flatMap ProviderSearchPage.results = fortyFive := by
  obtain ⟨pages, hpages, -, hflat, -⟩ :=
    (paging_enumerates (.cleveland [] echoDecode)).1 echoServer worksQuery fortyFive echoServer_answers
  exact ⟨pages, hpages, hflat⟩

end Summoners.Cceroby
