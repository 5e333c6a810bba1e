import StartupLatency.Proofs.MirroredStores

/-!
Listings of records behind a server and in memory. The server selects by the labels that are
mirrored in the metadata of its objects and takes them from the text of the selector, and comes to
the records that have the labels of the selector in memory.
-/

namespace StartupLatency.Cluster

open RecordObject ObjectServer

theorem items_read {α β : Type} (decode : Json.Decoder α) (finish : α → Except StoreError β)
    (value : Json → β) (items : List Json)
    (each : ∀ item ∈ items, ∃ part, decode item = .ok part ∧ finish part = .ok (value item)) :
    ∃ parts, Json.Decode.items decode items = .ok parts ∧
      parts.mapM finish = .ok (items.map value) := by
  induction items with
  | nil => exact ⟨[], rfl, rfl⟩
  | cons item rest ih =>
    obtain ⟨⟨part, decoded, finished⟩, later⟩ := List.forall_mem_cons.mp each
    obtain ⟨parts, others, whole⟩ := ih later
    refine ⟨part :: parts, ?_, ?_⟩
    · rw [Json.Decode.items, decoded]
      simp only [others]
      rfl
    · rw [List.mapM_cons, finished, List.map_cons]
      simp only [whole]
      rfl

/-- What a listing answers, once all its items can be read. -/
theorem listing_read {α β : Type} (decode : Json.Decoder α) (finish : α → Except StoreError β)
    (value : Json → β) (items : List Json) (version what : String)
    (each : ∀ item ∈ items, ∃ part, decode item = .ok part ∧ finish part = .ok (value item)) :
    (((found 200 (.obj [("metadata", .obj [("resourceVersion", .str version)]),
        ("items", .arr items)])).read (ObjectList.decode decode)).mapError
          (Fault.storeError what)).bind (fun list => list.items.mapM finish) =
      .ok (items.map value) := by
  obtain ⟨parts, decoded, finished⟩ := items_read decode finish value items each
  have list : ObjectList.decode decode
      (.obj [("metadata", .obj [("resourceVersion", .str version)]), ("items", .arr items)]) =
        .ok ⟨⟨some version, none⟩, parts⟩ := by
    have given :
        Json.Decode.optional (Json.Decode.list decode) (.arr items) = .ok (some parts) := by
      change (Json.Decode.items decode items).map some = _
      rw [decoded]
      rfl
    have about : ListMeta.decode (.obj [("resourceVersion", .str version)]) =
        .ok ⟨some version, none⟩ := rfl
    simp [ObjectList.decode, ObjectList.shape, Json.Shape.decode, Json.Shape.readMembers,
      Json.field, Except.map, about, given]
  rw [found_read _ 200 _ _ rfl list]
  exact finished

theorem selected_iff (selector : Selector) (object : Json) (record : Record)
    (separable : selector.Separable) (holds : Holds object record) :
    selectedBy (labelParameter selector) object = selector.matchesLabels record.spec.labels := by
  have labels : (metadata object).labels?.getD ∅ = record.spec.labels := by
    rw [holds_metadata holds, labels_of_metadata]
  unfold selectedBy labelParameter
  rw [labels]
  cases asks : selector.isEmpty with
  | true =>
    have none : selector.pairs.entries = [] := List.isEmpty_iff.mp asks
    simp [Selector.matchesLabels, SortedMap.all, none]
  | false =>
    simpa using selector.fulfils_text record.spec.labels separable asks

def listed (scope : Scope) (entry : ObjectName × Record) : Bool :=
  scope.ns?.all (· == entry.1.ns) && scope.selector.matchesLabels entry.2.spec.labels

theorem list_listed (store : RecordStore) (sound : store.Sound) (scope : Scope) :
    store.list scope = (store.records.entries.filter (listed scope)).map Prod.snd := by
  rw [RecordStore.list, SortedMap.values, List.filter_map]
  refine congrArg (List.map Prod.snd) (List.filter_congr fun entry member => ?_)
  have named : entry.2.ns = entry.1.ns :=
    congrArg ObjectName.ns (sound.filed entry.1 entry.2 (SortedMap.find?_of_mem member))
  rw [Function.comp_apply, Scope.covers, listed, named]
  cases scope.ns? <;> rfl

variable {source : VersionSource} {store : RecordStore} {server : ObjectServer}

def recordOf (object : Json) : Record := (record? object).getD default

theorem objects_read (mirrors : Mirrors source store server) :
    server.objects.mapValues recordOf =
      store.records.mapValues (Record.revised source.counterpart) := by
  refine SortedMap.ext_find? fun key => ?_
  rw [SortedMap.find?_mapValues, SortedMap.find?_mapValues]
  cases stored : store.records.find? key with
  | none =>
    rw [mirrors.absent key stored]
    rfl
  | some record =>
    obtain ⟨object, kept, holds⟩ := mirrors.present key record stored
    simp [kept, recordOf, holds_record holds]

theorem objects_hold (mirrors : Mirrors source store server) (entry : ObjectName × Json)
    (member : entry ∈ server.objects.entries) : Holds entry.2 (recordOf entry.2) := by
  have kept := SortedMap.find?_of_mem member
  cases stored : store.records.find? entry.1 with
  | none =>
    rw [mirrors.absent entry.1 stored] at kept
    cases kept
  | some record =>
    obtain ⟨object, found, holds⟩ := mirrors.present entry.1 record stored
    rw [found] at kept
    cases kept
    rw [recordOf, holds_record holds]
    exact holds

theorem selection_mirrored (mirrors : Mirrors source store server) (sound : store.Sound)
    (scope : Scope) (separable : scope.selector.Separable) :
    ((server.objects.entries.filter fun entry => scope.ns?.all (· == entry.1.ns) &&
        selectedBy (labelParameter scope.selector) entry.2).map Prod.snd).map recordOf =
      (store.list scope).map (Record.revised source.counterpart) := by
  have selected : (server.objects.entries.filter fun entry => scope.ns?.all (· == entry.1.ns) &&
      selectedBy (labelParameter scope.selector) entry.2) =
      server.objects.entries.filter (listed scope ∘ fun entry => (entry.1, recordOf entry.2)) :=
    List.filter_congr fun entry member => by
      rw [selected_iff _ _ _ separable (objects_hold mirrors entry member)]
      rfl
  -- Both listings are one filter of the same map, once the objects are read.
  have same := congrArg SortedMap.entries (objects_read mirrors)
  rw [selected, list_listed store sound scope, List.map_map]
  calc
    _ = ((server.objects.mapValues recordOf).entries.filter (listed scope)).map Prod.snd := by
      rw [SortedMap.mapValues, List.filter_map, List.map_map]
      rfl
    _ = ((store.records.mapValues (Record.revised source.counterpart)).entries.filter
          (listed scope)).map Prod.snd := by rw [same]
    _ = _ := by
      rw [SortedMap.mapValues, List.filter_map, List.map_map, List.map_map]
      rfl

def listTarget (scope : Scope) : String :=
  withQuery (Resource.records.path scope.ns?) (labelParameter scope.selector)

theorem list_target_longer (scope : Scope) (asks : scope.selector.isEmpty = false) :
    scope.selector.text.length ≤ (listTarget scope).utf8ByteSize := by
  have written := Url.Form.encode_longer scope.selector.text.toList
  have size := (size_bounds ((Resource.records.path scope.ns?).toList ++
    '?' :: (labelParameter scope.selector).flatMap fun pair => '&' :: Url.Form.encodePair pair)).1
  rw [listTarget, ObjectServer.with_query_parts]
  refine Nat.le_trans ?_ size
  rw [labelParameter, asks]
  simp [Url.Form.encodePair]
  rw [String.length_toList] at written
  omega

/-- A selector that can be sent has both sides list the same records. -/
theorem list_mirrored (mirrors : Mirrors source store server) (sound : store.Sound) (scope : Scope)
    (named : ∀ ns, scope.ns? = some ns → IsName ns) (separable : scope.selector.Separable) :
    Link.listRecords answer scope server =
      (if Uri.longest < (listTarget scope).utf8ByteSize then
          .error ((Fault.unsendable .tooLong).storeError Resource.records.plural)
        else .ok ((store.list scope).map (Record.revised source.counterpart)), server) := by
  rw [Link.listRecords, call_list server mirrors.resource _ _ scope named, ← listTarget]
  by_cases long : Uri.longest < (listTarget scope).utf8ByteSize
  · rw [if_pos long, if_pos long]
    rfl
  · rw [if_neg long, if_neg long, ← selection_mirrored mirrors sound scope separable]
    refine congrArg (·, server) (listing_read Parts.decode Parts.record recordOf _ _ _ ?_)
    intro object member
    obtain ⟨entry, chosen, rfl⟩ := List.mem_map.mp member
    exact holds_read (objects_hold mirrors entry (List.mem_filter.mp chosen).1)

end StartupLatency.Cluster
