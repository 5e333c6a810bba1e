import StartupLatency.Client.Address
import StartupLatency.Proofs.Decimal
import StartupLatency.Proofs.FormRoundTrip
import StartupLatency.Proofs.LatencyListings
import StartupLatency.Proofs.UrlParts
import StartupLatency.Server

/-!
The filters of a caller on their way to the query server. They are appended to the address of a
page as pairs, and the server reads them in the query of that address, whatever query the address
of the server had before.
-/

namespace StartupLatency

namespace Url

theorem with_pairs_query (url : Url) (pairs : List (String × String)) :
    (url.withPairs pairs).query?.getD [] = Form.append (url.query?.getD []) pairs := by
  rw [withPairs]
  cases blank : (Form.append (url.query?.getD []) pairs).isEmpty with
  | true => simpa [Option.filter, blank] using (List.isEmpty_iff.mp blank).symm
  | false => simp [Option.filter, blank]

/-- A URL of a special scheme has a path of segments, so that others can be relative to it. -/
theorem parse_segments (raw : String) (url : Url) (read : Url.parse raw = .ok url)
    (special : url.isSpecial = true) : ∃ segments, url.path = .segments segments := by
  simp only [parse, parseAgainst] at read
  split at read
  · rename_i scheme rest split
    simp only [absolute] at read
    split at read
    · exact (file_read _ url read).2
    · split at read
      · exact (with_authority_read _ _ _ _ url read).2
      · rename_i ordinary
        split at read
        · exact (with_authority_read _ _ _ _ url read).2
        · cases read
          exact ⟨_, rfl⟩
        · cases read
          exact absurd special ordinary
  · cases read

/-- A reference to a place below another URL, without a query of its own. -/
structure Below (reference : String) : Prop where
  plain : splitScheme? (clean reference.toList) = none
  main : ∃ c rest, clean reference.toList = c :: rest ∧ c ≠ '/' ∧ c ≠ '\\' ∧ c ≠ '#' ∧
    Parts.of (c :: rest) = ⟨c :: rest, none, none⟩

theorem page_below (page : QueryPage) : Below page.path := by
  match page with
  | .latency .timeToStart => exact ⟨rfl, _, _, rfl, by decide, by decide, by decide, rfl⟩
  | .latency .timeToReady => exact ⟨rfl, _, _, rfl, by decide, by decide, by decide, rfl⟩
  | .podHealth => exact ⟨rfl, _, _, rfl, by decide, by decide, by decide, rfl⟩

theorem relative_below (base : Url) (segments : List (List Char)) (c : Char) (rest : List Char)
    (stroke : c ≠ '/') (back : c ≠ '\\') :
    ∃ url, relative base segments ⟨c :: rest, none, none⟩ = .ok url ∧ url.query? = none := by
  simp only [relative, stroke, back, or_self, if_false]
  exact ⟨_, rfl, rfl⟩

/-- What is below a URL has none of its query. -/
theorem join_below (base : Url) (reference : String) (below : Below reference) :
    (∀ url, base.join reference = .ok url → url.query? = none) ∧
      ((∃ segments, base.path = .segments segments) → ∃ url, base.join reference = .ok url) := by
  obtain ⟨plain, c, rest, cleaned, stroke, back, hash, whole⟩ := below
  rw [join, parseAgainst, plain, cleaned, whole]
  cases path : base.path with
  | segments segments =>
    obtain ⟨url, read, blank⟩ := relative_below base segments c rest stroke back
    refine ⟨fun other same => ?_, fun _ => ⟨url, read⟩⟩
    cases read.symm.trans same
    exact blank
  | opaqueText text =>
    dsimp only
    constructor
    · intro other same
      split at same
      · rename_i fragment sign
        exact absurd (List.cons.inj sign).1 hash
      · cases same
    · rintro ⟨segments, other⟩
      cases other

end Url

namespace Filters

theorem params_of_pairs (filters : Filters) :
    Query.Params.ofPairs filters.pairs =
      ⟨filters.ns?, filters.topN?.map Text.Decimal.text, filters.selector?⟩ := by
  obtain ⟨ns?, topN?, selector?⟩ := filters
  cases ns? <;> cases topN? <;> cases selector? <;> rfl

theorem row_count_text (n : Nat) (counted : n < Word.limit64) :
    Query.Params.rowCount? (Text.Decimal.text n) = if 0 < n then some n else none := by
  rw [Query.Params.rowCount?, Text.Decimal.text, String.toList_ofList, Text.Decimal.trim_write,
    Text.Decimal.read_below_write, if_pos counted, Option.filter_some]
  simp

def query (filters : Filters) : Query where
  ns? := filters.ns?
  selector := filters.selector?.elim .empty .parse
  topN := (filters.topN?.filter fun n => 1 ≤ n).getD 10

/-- An address in whose query the server finds what the caller has given. -/
structure ArriveIn (filters : Filters) (url : Url) : Prop where
  params : Query.Params.ofPairs (Url.Form.decode (url.query?.getD [])) =
    ⟨filters.ns?, filters.topN?.map Text.Decimal.text, filters.selector?⟩
  asked : Server.queryOf (url.query?.getD []) = filters.query
  covered : ∀ ns labels, (Server.queryOf (url.query?.getD [])).scope.covers ns labels = true ↔
    filters.query.Matches ns labels

theorem query_of_params (filters : Filters)
    (counted : ∀ n, filters.topN? = some n → n < Word.limit64) :
    (⟨filters.ns?, filters.topN?.map Text.Decimal.text, filters.selector?⟩ :
      Query.Params).query = filters.query := by
  obtain ⟨ns?, topN?, selector?⟩ := filters
  have rows : ((topN?.map Text.Decimal.text).bind Query.Params.rowCount?) =
      topN?.filter fun n => 1 ≤ n := by
    cases topN? with
    | none => rfl
    | some n =>
      rw [Option.map_some, Option.bind_some, row_count_text n (counted n rfl), Option.filter_some]
      simp [Nat.one_le_iff_ne_zero, Nat.pos_iff_ne_zero]
  rw [Query.Params.query, rows]
  cases selector? <;> rfl

theorem arrive_in_page (filters : Filters) (page : Url) (blank : page.query? = none)
    (counted : ∀ n, filters.topN? = some n → n < Word.limit64) :
    filters.ArriveIn (page.withPairs filters.pairs) := by
  have params : Query.Params.ofPairs
      (Url.Form.decode ((page.withPairs filters.pairs).query?.getD [])) =
        ⟨filters.ns?, filters.topN?.map Text.Decimal.text, filters.selector?⟩ := by
    rw [Url.with_pairs_query, Url.Form.decode_append, blank]
    exact filters.params_of_pairs
  have asked : Server.queryOf ((page.withPairs filters.pairs).query?.getD []) = filters.query := by
    rw [Server.queryOf, params, query_of_params filters counted]
  refine ⟨params, asked, fun ns labels => ?_⟩
  rw [asked]
  exact Query.covers_iff_matches

end Filters

/-- The filters of a caller reach the server as they were given, whatever the address of the server
is, and a server with an address of a common scheme can be asked for every page. -/
theorem filters_arrive (server : String) (page : QueryPage) (filters : Filters)
    (counted : ∀ n, filters.topN? = some n → n < Word.limit64) :
    (∀ url, pageAddress server page.path filters = .ok url → filters.ArriveIn url) ∧
      ∀ base, Url.parse server = .ok base → base.isSpecial = true →
        ∃ url, pageAddress server page.path filters = .ok url := by
  constructor
  · intro url made
    rw [pageAddress] at made
    split at made
    · cases made
    · rename_i base read
      split at made
      · cases made
      · rename_i place joined
        cases made
        exact filters.arrive_in_page place
          ((Url.join_below base _ (Url.page_below page)).1 place joined) counted
  · intro base read special
    obtain ⟨place, joined⟩ := (Url.join_below base _ (Url.page_below page)).2
      (Url.parse_segments server base read special)
    refine ⟨place.withPairs filters.pairs, ?_⟩
    rw [pageAddress, read]
    dsimp only
    rw [joined]

-- The address of the server asks for a namespace itself, which is left behind.
theorem odd_filters_arrive :
    ∃ url, pageAddress "http://observer:8080/base/?namespace=old&topN=1#part"
        QueryPage.podHealth.path ⟨some "a&b=c+%20 é", some 0, some " app = x,tier="⟩ = .ok url ∧
      Filters.ArriveIn ⟨some "a&b=c+%20 é", some 0, some " app = x,tier="⟩ url := by
  obtain ⟨arrive, asks⟩ := filters_arrive "http://observer:8080/base/?namespace=old&topN=1#part"
    .podHealth ⟨some "a&b=c+%20 é", some 0, some " app = x,tier="⟩ fun n given => by
      cases given
      decide
  obtain ⟨url, made⟩ := asks _ rfl rfl
  exact ⟨url, made, arrive url made⟩

end StartupLatency
