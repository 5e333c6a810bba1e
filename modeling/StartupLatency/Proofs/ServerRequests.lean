import StartupLatency.Cluster.ObjectServer
import StartupLatency.Proofs.FormRoundTrip

/-!
Requests for records on their way to the server. A target of proper names is sent as it was put
together, and the server finds in it the target and the parameters that it was made of; only a
selector can make it too long to be sent.
-/

namespace StartupLatency.Cluster

def nameChar (c : Char) : Bool := Text.isAlpha c || Text.isDigit c || c == '-' || c == '.'

def nameChars (text : String) : Bool := text.toList.all nameChar

def IsName (text : String) : Prop := text ≠ "" ∧ text.length ≤ 253 ∧ nameChars text = true

theorem name_char_ascii (c : Char) (named : nameChar c = true) : c.toNat < 128 := by
  refine Url.Form.keep_ascii c ?_
  simp only [nameChar, Bool.or_eq_true, beq_iff_eq] at named
  simp only [Url.Form.keep, Bool.or_eq_true]
  rcases named with ((alpha | digit) | rfl) | rfl
  · exact Or.inl (Or.inl alpha)
  · exact Or.inl (Or.inr digit)
  · exact Or.inr (by decide)
  · exact Or.inr (by decide)

theorem name_char_plain (c : Char) (named : nameChar c = true) : Uri.inPath c = true := by
  have all := Url.Form.ascii_all (fun c => !nameChar c || Uri.inPath c) (by decide) c
    (name_char_ascii c named)
  simpa [named] using all

theorem written_in_query (c : Char) (written : Url.Form.written c = true) :
    Uri.inQuery c = true := by
  have all := Url.Form.ascii_all (fun c => !Url.Form.written c || Uri.inQuery c) (by decide) c
    (Url.Form.written_ascii c written)
  simpa [written] using all

namespace Uri

theorem in_path_plain (c : Char) (inside : inPath c = true) : c ≠ '#' ∧ c ≠ '?' := by
  constructor
  · rintro rfl
    exact absurd inside (by decide)
  · rintro rfl
    exact absurd inside (by decide)

/-- A target that was put together properly is sent as it is, unless it is too long. -/
theorem of_text_parts (path tail query : List Char) (inside : ∀ c ∈ path, inPath c = true)
    (asked : ∀ c ∈ query, inQuery c = true)
    (parts : tail = [] ∧ query = [] ∨ tail = '?' :: query) :
    ofText (String.ofList (path ++ tail)) =
        (if longest < (String.ofList (path ++ tail)).utf8ByteSize then .error .tooLong
          else .ok (String.ofList (path ++ tail))) ∧
      (path ++ tail).takeWhile (· != '?') = path ∧
      ((path ++ tail).dropWhile (· != '?')).drop 1 = query := by
  have path_mark : ∀ c ∈ path, (c != '?') = true := fun c member => by
    simp [(in_path_plain c (inside c member)).2]
  have before : (path ++ tail).takeWhile (· != '?') = path := by
    rw [List.takeWhile_append_of_pos path_mark]
    rcases parts with ⟨rfl, _⟩ | rfl <;> simp
  have behind : ((path ++ tail).dropWhile (· != '?')).drop 1 = query := by
    rw [List.dropWhile_append_of_pos path_mark]
    rcases parts with ⟨rfl, rfl⟩ | rfl <;> simp
  have plain : '#' ∉ path ++ tail := by
    intro hash
    rcases List.mem_append.mp hash with front | back
    · exact (in_path_plain _ (inside _ front)).1 rfl
    · rcases parts with ⟨rfl, _⟩ | rfl
      · cases back
      · rcases List.mem_cons.mp back with same | parameter
        · exact absurd same (by decide)
        · exact absurd (asked _ parameter) (by decide)
  have sent := Text.take_all '#' (path ++ tail) plain
  refine ⟨?_, before, behind⟩
  rw [ofText]
  simp only [String.toList_ofList, sent, before, behind, List.all_eq_true.mpr inside,
    List.all_eq_true.mpr asked, Bool.and_self, if_true]

end Uri

namespace ObjectServer

def Target.segments : Target → List String
  | .collection none => ["apis", "perf.github.com", "v1", "datapathresults"]
  | .collection (some ns) => ["apis", "perf.github.com", "v1", "namespaces", ns, "datapathresults"]
  | .object key =>
    ["apis", "perf.github.com", "v1", "namespaces", key.ns, "datapathresults", key.name]

/-- Every segment may be a name, so that the path falls apart into no others. -/
def Target.Clean (target : Target) : Prop :=
  ∀ segment ∈ target.segments, nameChars segment = true

theorem clean_char {target : Target} (clean : target.Clean) (segment : String)
    (among : segment ∈ target.segments) : ∀ c ∈ segment.toList, nameChar c = true :=
  List.all_eq_true.mp (clean segment among)

theorem path_segments (target : Target) :
    (target.path .records).toList =
      target.segments.flatMap fun segment => '/' :: segment.toList := by
  cases target with
  | collection ns? =>
    cases ns? with
    | none => rfl
    | some ns =>
      simp [Target.path, Resource.path, Resource.records, Resource.apiVersion, Target.segments]
  | object key =>
    simp [Target.path, Resource.objectPath, Resource.path, Resource.records, Resource.apiVersion,
      Target.segments]

theorem split_path (target : Target) (clean : target.Clean) :
    (Text.splitOn '/' (target.path .records).toList).map String.ofList = "" :: target.segments := by
  have whole : ∀ piece ∈ [] :: target.segments.map String.toList, '/' ∉ piece := by
    intro piece member
    rcases List.mem_cons.mp member with rfl | listed
    · exact List.not_mem_nil
    · obtain ⟨segment, among, rfl⟩ := List.mem_map.mp listed
      exact fun stroke => absurd (clean_char clean segment among '/' stroke) (by decide)
  have joined := Text.split_on_joined '/' [] _ whole
  rw [List.nil_append, List.flatMap_map] at joined
  rw [path_segments, joined]
  simp

theorem path_injective (first second : Target) (firstClean : first.Clean)
    (secondClean : second.Clean) (same : first.path .records = second.path .records) :
    first.segments = second.segments := by
  have split := split_path first firstClean
  rw [same, split_path second secondClean] at split
  exact (List.cons.inj split).2.symm

theorem clean_path (target : Target) (clean : target.Clean) :
    ∀ c ∈ (target.path .records).toList, Uri.inPath c = true := by
  rw [path_segments]
  intro c member
  obtain ⟨segment, among, here⟩ := List.mem_flatMap.mp member
  rcases List.mem_cons.mp here with rfl | inside
  · decide
  · exact name_char_plain c (clean_char clean segment among c inside)

theorem collection_clean (ns? : Option String)
    (named : ∀ ns, ns? = some ns → nameChars ns = true) :
    (Target.collection ns?).Clean := by
  unfold Target.Clean
  cases ns? with
  | none => decide
  | some ns =>
    simp only [Target.segments, List.forall_mem_cons, List.not_mem_nil, false_implies, implies_true,
      and_true]
    exact ⟨by decide, by decide, by decide, by decide, named ns rfl, by decide⟩

theorem object_clean (key : ObjectName) (ns : nameChars key.ns = true)
    (name : nameChars key.name = true) : (Target.object key).Clean := by
  unfold Target.Clean
  simp only [Target.segments, List.forall_mem_cons, List.not_mem_nil, false_implies, implies_true,
    and_true]
  exact ⟨by decide, by decide, by decide, by decide, ns, by decide, name⟩

theorem path_differs (first second : Target) (firstClean : first.Clean) (secondClean : second.Clean)
    (lengths : first.segments.length ≠ second.segments.length) :
    (first.path .records == second.path .records) = false := by
  rw [beq_eq_false_iff_ne]
  intro same
  exact lengths (congrArg List.length (path_injective first second firstClean secondClean same))

/-- The path of a target leads to it, since paths to other kinds of targets have other lengths. -/
theorem target_of_path (target : Target) (clean : target.Clean) :
    targetOf? .records (target.path .records) = some target := by
  have whole : (Target.collection none).Clean := collection_clean none fun _ same => by cases same
  unfold targetOf?
  rw [split_path target clean]
  cases target with
  | collection ns? =>
    cases ns? with
    | none => rfl
    | some ns =>
      have other := path_differs (.collection none) (.collection (some ns)) whole clean
        (by simp [Target.segments])
      simp [Target.segments, other]
  | object key =>
    have other := path_differs (.collection none) (.object key) whole clean
      (by simp [Target.segments])
    have second : (Target.collection (some "datapathresults")).Clean :=
      collection_clean _ fun ns same => by cases same; decide
    have another := path_differs _ (.object key) second clean (by simp [Target.segments])
    simp [Target.segments, other, another]

theorem parameters_in_query (parameters : List (String × String)) :
    ∀ c ∈ parameters.flatMap (fun pair => '&' :: Url.Form.encodePair pair),
      Uri.inQuery c = true := by
  intro c member
  obtain ⟨pair, _, here⟩ := List.mem_flatMap.mp member
  rcases List.mem_cons.mp here with rfl | inside
  · decide
  · rcases List.mem_append.mp inside with name | value
    · exact written_in_query c (Url.Form.text_written _ c name)
    · rcases List.mem_cons.mp value with rfl | later
      · decide
      · exact written_in_query c (Url.Form.text_written _ c later)

theorem with_query_parts (path : String) (parameters : List (String × String)) :
    withQuery path parameters = String.ofList (path.toList ++
      '?' :: parameters.flatMap fun pair => '&' :: Url.Form.encodePair pair) := by
  rw [← String.toList_inj]
  simp [withQuery, List.flatMap_map]

variable (server : ObjectServer) (target : Target)

/-- A request for a target with parameters gets what the server makes of it. -/
theorem answer_query (records : server.resource = .records) (clean : target.Clean) (method : Method)
    (parameters : List (String × String)) (body? : Option Json) :
    answer ⟨method, withQuery (target.path .records) parameters, body?⟩ server =
      server.respond (some target) parameters method body? := by
  obtain ⟨_, path, query⟩ := Uri.of_text_parts (target.path .records).toList _ _
    (clean_path target clean) (parameters_in_query parameters) (Or.inr rfl)
  simp only [answer, with_query_parts, String.toList_ofList, path, query, String.ofList_toList,
    Url.Form.decode_written, records, target_of_path target clean]

theorem answer_plain (records : server.resource = .records) (clean : target.Clean) (method : Method)
    (body? : Option Json) :
    answer ⟨method, target.path .records, body?⟩ server =
      server.respond (some target) [] method body? := by
  obtain ⟨_, path, query⟩ := Uri.of_text_parts (target.path .records).toList [] []
    (clean_path target clean) (fun _ none => absurd none List.not_mem_nil) (Or.inl ⟨rfl, rfl⟩)
  rw [List.append_nil] at path query
  simp only [answer, path, query, String.ofList_toList, records, target_of_path target clean]
  rfl

theorem make_query (clean : target.Clean) (method : Method) (parameters : List (String × String))
    (body? : Option Json) :
    Request.make method (withQuery (target.path .records) parameters) body? =
      if Uri.longest < (withQuery (target.path .records) parameters).utf8ByteSize then
        .error .tooLong
      else .ok ⟨method, withQuery (target.path .records) parameters, body?⟩ := by
  have sent := (Uri.of_text_parts (target.path .records).toList _ _
    (clean_path target clean) (parameters_in_query parameters) (Or.inr rfl)).1
  rw [Request.make, with_query_parts, sent]
  split <;> rfl

theorem make_plain (clean : target.Clean) (method : Method) (body? : Option Json) :
    Request.make method (target.path .records) body? =
      if Uri.longest < (target.path .records).utf8ByteSize then .error .tooLong
      else .ok ⟨method, target.path .records, body?⟩ := by
  have sent := (Uri.of_text_parts (target.path .records).toList [] []
    (clean_path target clean) (fun _ none => absurd none List.not_mem_nil) (Or.inl ⟨rfl, rfl⟩)).1
  rw [List.append_nil, String.ofList_toList] at sent
  rw [Request.make, sent]
  split <;> rfl

end ObjectServer

-- Every character has a byte of its own and at most four.
theorem size_bounds (cs : List Char) :
    cs.length ≤ (String.ofList cs).utf8ByteSize ∧
      (String.ofList cs).utf8ByteSize ≤ 4 * cs.length := by
  induction cs with
  | nil => decide
  | cons c rest ih =>
    have some_byte := c.utf8Size_pos
    have few_bytes := c.utf8Size_le_four
    rw [String.ofList_cons, String.utf8ByteSize_append, String.utf8ByteSize_singleton,
      List.length_cons]
    omega

structure Sendable (key : ObjectName) : Prop where
  ns : nameChars key.ns = true
  name : nameChars key.name = true
  short : key.ns.length + key.name.length ≤ 1000

theorem record_key_sendable (ns uid : String) (nsNamed : IsName ns) (uidNamed : IsName uid) :
    Sendable ⟨ns, Record.nameFor uid⟩ := by
  refine ⟨nsNamed.2.2, ?_, ?_⟩
  · have fixed : nameChars "dpresult-" = true := by decide
    rw [nameChars] at fixed
    rw [nameChars, Record.nameFor, String.toList_append, List.all_append, fixed]
    exact uidNamed.2.2
  · have length : (Record.nameFor uid).length = 9 + uid.length := by
      rw [Record.nameFor, String.length_append]
      rfl
    have nsShort := nsNamed.2.1
    have uidShort := uidNamed.2.1
    dsimp only
    omega

namespace ObjectServer

variable (server : ObjectServer) (records : server.resource = .records)

theorem path_short (target : Target)
    (short : (target.segments.flatMap fun segment => '/' :: segment.toList).length ≤ 10000) :
    ¬ Uri.longest < (withQuery (target.path .records) []).utf8ByteSize ∧
      ¬ Uri.longest < (target.path .records).utf8ByteSize := by
  have query := (size_bounds ((target.path .records).toList ++ ['?'])).2
  have plain := (size_bounds (target.path .records).toList).2
  rw [String.ofList_toList] at plain
  rw [with_query_parts, Uri.longest, List.flatMap_nil]
  rw [path_segments] at query plain ⊢
  rw [List.length_append, List.length_singleton] at query
  omega

theorem object_short (key : ObjectName) (sendable : Sendable key) :
    ¬ Uri.longest < (withQuery ((Target.object key).path .records) []).utf8ByteSize ∧
      ¬ Uri.longest < ((Target.object key).path .records).utf8ByteSize := by
  have short := sendable.short
  refine path_short (.object key) ?_
  have ns : key.ns.toList.length = key.ns.length := String.length_toList
  have name : key.name.toList.length = key.name.length := String.length_toList
  simp [Target.segments]
  omega

theorem collection_short (ns : String) (short : ns.length ≤ 1000) :
    ¬ Uri.longest <
      (withQuery ((Target.collection (some ns)).path .records) []).utf8ByteSize := by
  refine (path_short (.collection (some ns)) ?_).1
  have size : ns.toList.length = ns.length := String.length_toList
  simp [Target.segments]
  omega

variable {α : Type} (what : String) (decode : Json.Decoder α)

include records

theorem call_get (key : ObjectName) (sendable : Sendable key) :
    Link.call answer what decode (Request.get .records key) server =
      (((((server.objects.find? key).map (found 200)).getD notFound).read decode).mapError
        (Fault.storeError what), server) := by
  have clean := object_clean key sendable.ns sendable.name
  have made : Request.get .records key = .ok ⟨.get, (Target.object key).path .records, none⟩ :=
    (make_plain _ clean .get none).trans (if_neg (object_short key sendable).2)
  rw [made, Link.call, answer_plain server _ records clean]
  rfl

theorem call_create (key : ObjectName) (sendable : Sendable key) (object : Json) :
    Link.call answer what decode (Request.create .records key.ns object) server =
      (((server.create key.ns object).1.read decode).mapError (Fault.storeError what),
        (server.create key.ns object).2) := by
  have clean := collection_clean (some key.ns) fun ns same => by
    cases same
    exact sendable.ns
  have short := sendable.short
  have made : Request.create .records key.ns object =
      .ok ⟨.post, withQuery ((Target.collection (some key.ns)).path .records) [], some object⟩ :=
    (make_query _ clean .post [] (some object)).trans (if_neg (collection_short key.ns (by omega)))
  rw [made, Link.call, answer_query server _ records clean]
  rfl

theorem call_patch (key : ObjectName) (sendable : Sendable key) (patch : Json) :
    Link.call answer what decode (Request.patch .records key patch) server =
      (((server.change key patch).1.read decode).mapError (Fault.storeError what),
        (server.change key patch).2) := by
  have clean := object_clean key sendable.ns sendable.name
  have made : Request.patch .records key patch =
      .ok ⟨.patch, withQuery ((Target.object key).path .records) [], some patch⟩ :=
    (make_query _ clean .patch [] (some patch)).trans (if_neg (object_short key sendable).1)
  rw [made, Link.call, answer_query server _ records clean]
  rfl

/-- A listing is answered unless its target is too long, for which only the selector can be. -/
theorem call_list (scope : Scope) (named : ∀ ns, scope.ns? = some ns → IsName ns) :
    Link.call answer what decode (Request.list .records scope) server =
      if Uri.longest < (withQuery (Resource.records.path scope.ns?)
          (labelParameter scope.selector)).utf8ByteSize then
        (.error ((Fault.unsendable .tooLong).storeError what), server)
      else
        (((server.list scope.ns? (labelParameter scope.selector)).read decode).mapError
          (Fault.storeError what), server) := by
  have clean := collection_clean scope.ns? fun ns same => (named ns same).2.2
  have made := make_query (.collection scope.ns?) clean .get (labelParameter scope.selector) none
  rw [Request.list]
  change Link.call answer what decode (Request.make .get (withQuery
    ((Target.collection scope.ns?).path .records) _) none) server = _
  rw [made]
  change _ = if Uri.longest < (withQuery ((Target.collection scope.ns?).path .records)
    (labelParameter scope.selector)).utf8ByteSize then _ else _
  split
  · rfl
  · rw [Link.call, answer_query server _ records clean]
    rfl

end ObjectServer
end StartupLatency.Cluster
