import StartupLatency.Cluster.Watch
import StartupLatency.Proofs.SelectorText
import StartupLatency.Proofs.ServerRequests

/-!
Selectors in requests. A selector that was read from a text is put into a list or a watch as a text
again, and who reads the parameters of the request asks for the same labels.
-/

namespace StartupLatency

namespace Cluster

/-- A request for the objects of a scope, as a store or a watch makes it. -/
inductive Asks (scope : Scope) (request : Request) : Prop where
  | pods (made : Request.list .pods scope = .ok request)
  | records (made : Request.list .records scope = .ok request)
  | watch (watcher : Watcher) (made : watcher.request? scope = some (.ok request))

def askedText? (parameters : List (String × String)) : Option String :=
  parameters.lookup "labelSelector"

def askedSelector (parameters : List (String × String)) : Selector :=
  (askedText? parameters).elim .empty .parse

-- The empty selector is not put into a request.
def writtenSelector? (selector : Selector) : Option String :=
  if selector.isEmpty then none else some selector.text

theorem asked_text (selector : Selector) (before after : List (String × String))
    (others : askedText? before = none ∧ askedText? after = none) :
    askedText? (before ++ labelParameter selector ++ after) = writtenSelector? selector := by
  have here : askedText? (labelParameter selector) = writtenSelector? selector := by
    rw [labelParameter, writtenSelector?]
    split <;> rfl
  unfold askedText? at *
  rw [List.lookup_append, List.lookup_append, others.1, others.2, Option.or_none, Option.none_or,
    here]

theorem asked_selector {selector : Selector} {parameters : List (String × String)}
    (told : askedText? parameters = writtenSelector? selector) (writable : selector.Writable) :
    askedSelector parameters = selector := by
  rw [askedSelector, told, writtenSelector?]
  split
  · rename_i blank
    exact (Selector.eq_empty blank).symm
  · exact selector.parse_text writable

/-- Every request for the objects of a scope has a resource's path and parameters that tell the
selector. -/
theorem asks_made (scope : Scope) (request : Request) (asks : Asks scope request) :
    ∃ resource parameters, (resource = Resource.pods ∨ resource = Resource.records) ∧
      Request.make .get (withQuery (resource.path scope.ns?) parameters) none = .ok request ∧
      askedText? parameters = writtenSelector? scope.selector := by
  cases asks with
  | pods made =>
    refine ⟨.pods, _, Or.inl rfl, made, ?_⟩
    have told := asked_text scope.selector [] [] ⟨rfl, rfl⟩
    rwa [List.nil_append, List.append_nil] at told
  | records made =>
    refine ⟨.records, _, Or.inr rfl, made, ?_⟩
    have told := asked_text scope.selector [] [] ⟨rfl, rfl⟩
    rwa [List.nil_append, List.append_nil] at told
  | watch watcher made =>
    cases watcher with
    | listing token? found =>
      refine ⟨.pods, _, Or.inl rfl, Option.some.inj made, ?_⟩
      have told := asked_text scope.selector []
        ([("limit", Text.Decimal.text Watcher.pageSize)] ++
          token?.toList.map fun token => ("continue", token))
        ⟨rfl, by cases token? <;> rfl⟩
      rwa [List.nil_append, ← List.append_assoc] at told
    | listed version =>
      exact ⟨.pods, _, Or.inl rfl, Option.some.inj made,
        asked_text scope.selector _ _ ⟨rfl, rfl⟩⟩
    | watching version lines => cases made

/-- The marks at which a target is cut are in a collection's path only if they are in the name of
its namespace. -/
theorem path_unmarked (resource : Resource) (ns? : Option String)
    (known : resource = .pods ∨ resource = .records)
    (plain : ∀ ns ∈ ns?, '?' ∉ ns.toList ∧ '#' ∉ ns.toList) :
    '?' ∉ (resource.path ns?).toList ∧ '#' ∉ (resource.path ns?).toList := by
  rcases known with rfl | rfl <;> cases ns? <;>
    simp_all [Resource.path, Resource.apiVersion, Resource.pods, Resource.records]

/-- The parameters that are read behind the path of a target. -/
def Request.parameters (request : Request) : List (String × String) :=
  Url.Form.decode ((request.uri.toList.dropWhile (· != '?')).drop 1)

theorem Uri.of_text_sent (text uri : String) (sent : Uri.ofText text = .ok uri) :
    uri = String.ofList (text.toList.takeWhile (· != '#')) := by
  unfold Uri.ofText at sent
  dsimp only at sent
  split at sent
  · cases sent
  · split at sent
    · cases sent
      rfl
    · cases sent

/-- Parameters behind a path that does not itself begin a query are found in what is sent. -/
theorem sent_parameters (method : Method) (path : String) (given : List (String × String))
    (body? : Option Json) (request : Request) (mark : '?' ∉ path.toList) (hash : '#' ∉ path.toList)
    (made : Request.make method (withQuery path given) body? = .ok request) :
    request.parameters = given := by
  have parts : (withQuery path given).toList = path.toList ++
      '?' :: given.flatMap fun pair => '&' :: Url.Form.encodePair pair := by
    rw [ObjectServer.with_query_parts, String.toList_ofList]
  have plain : '#' ∉ (withQuery path given).toList := by
    rw [parts, List.mem_append, List.mem_cons]
    rintro (inside | same | asked)
    · exact hash inside
    · exact absurd same (by decide)
    · exact absurd (ObjectServer.parameters_in_query given _ asked) (by decide)
  rw [Request.make] at made
  cases sent : Uri.ofText (withQuery path given) with
  | error cause =>
    rw [sent] at made
    cases made
  | ok uri =>
    rw [sent] at made
    cases made
    rw [Request.parameters, Uri.of_text_sent _ uri sent, String.toList_ofList,
      Text.take_all '#' _ plain, parts, Text.drop_before '?' _ _ mark]
    exact Url.Form.decode_written given

/-- The selectors that are read from texts are those that come back from the text they are written
as. A request for what a text asks for carries the selector's own text, and whoever reads that asks
for the labels that the first text asks for. -/
theorem selectors_come_back :
    (∀ selector : Selector, Selector.parse selector.text = selector ↔ selector.Writable) ∧
      (∀ raw, (Selector.parse raw).Writable) ∧
      ∀ raw ns? request, (∀ ns ∈ ns?, '?' ∉ ns.toList ∧ '#' ∉ ns.toList) →
        Asks ⟨ns?, .parse raw⟩ request →
        askedText? request.parameters = writtenSelector? (.parse raw) ∧
          ∀ labels, (askedSelector request.parameters).matchesLabels labels =
            (Selector.parse raw).matchesLabels labels := by
  refine ⟨fun selector => ⟨fun same => ?_, selector.parse_text⟩, Selector.parse_writable, ?_⟩
  · rw [← same]
    exact Selector.parse_writable selector.text
  · intro raw ns? request plain asks
    obtain ⟨resource, parameters, known, made, told⟩ := asks_made ⟨ns?, .parse raw⟩ request asks
    obtain ⟨mark, hash⟩ := path_unmarked resource ns? known plain
    have sent : request.parameters = parameters :=
      sent_parameters .get _ parameters none request mark hash made
    rw [sent]
    refine ⟨told, fun labels => ?_⟩
    rw [asked_selector told (Selector.parse_writable raw)]

-- Blanks around the sign count, and of two pairs with one key the later.
theorem blank_pairs_come_back :
    ∃ request, Asks ⟨some "perf", .parse " app = a&b ,,app = +%,=,tier="⟩ request ∧
      askedText? request.parameters = some "app = +%,tier=" ∧
      ∀ labels, (askedSelector request.parameters).matchesLabels labels =
        (Selector.parse " app = a&b ,,app = +%,=,tier=").matchesLabels labels := by
  have asks : Asks ⟨some "perf", .parse " app = a&b ,,app = +%,=,tier="⟩ _ := .records rfl
  have plain : ∀ ns ∈ some "perf", '?' ∉ ns.toList ∧ '#' ∉ ns.toList := by decide
  obtain ⟨told, agree⟩ := selectors_come_back.2.2 _ _ _ plain asks
  exact ⟨_, asks, told.trans (by decide +kernel), agree⟩

end Cluster
end StartupLatency
