import PySearch.Cluster.Topology
import PySearch.Lib.Percent
import Mathlib.Data.List.TakeWhile

namespace PySearch

open Percent

-- What the HTTP libraries do with the target of a request. `allowed` are the characters that
-- are sent as they are, `replace` is what becomes of bytes that are not UTF-8. Neither invents
-- a plain character.
structure HttpStack where
  allowed : Char → Bool
  replace : List UInt8 → List Char
  allowed_percent : allowed '%' = false
  replace_ascii : ∀ bytes, asciiChars (replace bytes) ≤ asciiBytes bytes

namespace HttpStack

variable (stack : HttpStack)

-- The path ends where a query or a fragment begins.
def pathOf (target : List Char) : List Char := target.takeWhile fun c => c ≠ '?' && c ≠ '#'

-- The path of a request, as the client puts it on the wire.
def send (target : String) : List Char := quote stack.allowed (pathOf target.toList)

def decode (bytes : List UInt8) : List Char :=
  match bytes.toByteArray.utf8Decode? with
  | some chars => chars.toList
  | none => stack.replace bytes

-- The path of a request, as the server reads it from the wire.
def receive (wire : List Char) : List Char := stack.decode (unquote wire)

end HttpStack

-- A route whose parameter is the segment after the given text.
def routeParameter (route : String) (path : List Char) : Option String :=
  let segment := path.drop route.toList.length
  if route.toList <+: path ∧ segment ≠ [] ∧ '/' ∉ segment then some (String.ofList segment)
  else none

-- The target of `put_document` and `delete_document`, less the base URL.
def HttpShardClient.documentTarget (documentId : String) : String :=
  "/internal/documents/" ++ documentId

-- The target of `apply_put` and `apply_delete`, less the base URL.
def HttpNodeLink.documentTarget (documentId : String) : String :=
  "/internal/replicate/" ++ documentId

-- The write under the identifier that its route was asked for. A blank one makes no document.
def Mutation.addressedTo (documentId : String) : Mutation → Except PyError Mutation
  | .put document => (Document.create documentId document.text).map .put
  | .delete _ => .ok (.delete documentId)

theorem Document.create_self (document : Document) :
    Document.create document.documentId document.text = .ok document := dif_pos document.nonblank

theorem Document.create_documentId {documentId text : String} {document : Document}
    (h : Document.create documentId text = .ok document) : document.documentId = documentId := by
  unfold create at h
  split at h
  · cases h
    rfl
  · cases h

@[simp] theorem Mutation.addressedTo_self (mutation : Mutation) :
    mutation.addressedTo mutation.documentId = .ok mutation := by
  cases mutation with
  | put document => rw [addressedTo, documentId, Document.create_self, Except.map]
  | delete documentId => rfl

namespace HttpStack

variable (stack : HttpStack)

-- The identifier that the primary is asked to store or to delete.
def primaryId (documentId : String) : Option String :=
  routeParameter "/internal/documents/"
    (stack.receive (stack.send (HttpShardClient.documentTarget documentId)))

-- The identifier that a replica is asked to store or to delete by a primary.
def replicaId (documentId : String) : Option String :=
  routeParameter "/internal/replicate/"
    (stack.receive (stack.send (HttpNodeLink.documentTarget documentId)))

-- Every copy is told the identifier that the client used.
def Survives (documentId : String) : Prop :=
  stack.primaryId documentId = some documentId ∧
    (stack.primaryId documentId).bind stack.replicaId = some documentId

variable {stack}

theorem Survives.replicaId {documentId : String} (h : stack.Survives documentId) :
    stack.replicaId documentId = some documentId := by
  have hboth := h.2
  rwa [h.1, Option.bind_some] at hboth

theorem decode_utf8 (text : List Char) :
    stack.decode (text.flatMap String.utf8EncodeChar) = text := by
  have hdecoded : (text.flatMap String.utf8EncodeChar).toByteArray.utf8Decode? =
      some text.toArray := List.utf8Decode?_utf8Encode
  simp only [decode, hdecoded]

theorem decode_ascii (bytes : List UInt8) :
    asciiChars (stack.decode bytes) ≤ asciiBytes bytes := by
  unfold decode
  split
  · rename_i chars hchars
    have hsome : bytes.toByteArray.utf8Decode?.isSome = true := by rw [hchars]; rfl
    obtain ⟨text, htext⟩ := ByteArray.isSome_utf8Decode?_iff.mp hsome
    have hbytes : bytes = text.flatMap String.utf8EncodeChar := List.toByteArray_inj.mp htext
    have hdecoded : bytes.toByteArray.utf8Decode? = some text.toArray := by
      rw [htext]
      exact List.utf8Decode?_utf8Encode
    rw [hdecoded] at hchars
    cases hchars
    rw [hbytes, asciiBytes_flatMap]
  · exact stack.replace_ascii bytes

theorem routeParameter_eq_some {route documentId : String} {path : List Char} :
    routeParameter route path = some documentId ↔
      path = route.toList ++ documentId.toList ∧ documentId.toList ≠ [] ∧
        '/' ∉ documentId.toList := by
  unfold routeParameter
  dsimp only
  constructor
  · intro h
    split at h
    · rename_i hmatch
      obtain ⟨⟨segment, rfl⟩, hne, hslash⟩ := hmatch
      rw [List.drop_left] at h hne hslash
      cases h
      rw [String.toList_ofList]
      exact ⟨rfl, hne, hslash⟩
    · cases h
  · rintro ⟨rfl, hne, hslash⟩
    rw [List.drop_left, if_pos ⟨List.prefix_append _ _, hne, hslash⟩, String.ofList_toList]

theorem pathOf_eq_self_iff (text : List Char) :
    pathOf text = text ↔ '?' ∉ text ∧ '#' ∉ text := by
  rw [pathOf, List.takeWhile_eq_self_iff]
  constructor
  · intro h
    exact ⟨fun hm => by simpa using h _ hm, fun hm => by simpa using h _ hm⟩
  · rintro ⟨hquery, hfragment⟩ c hm
    have hq : c ≠ '?' := fun hc => hquery (hc ▸ hm)
    have hf : c ≠ '#' := fun hc => hfragment (hc ▸ hm)
    simp [hq, hf]

-- What the path leaves out begins with a plain character.
theorem asciiChars_pathOf (text : List Char) :
    asciiChars (pathOf text) + (if pathOf text = text then 0 else 1) ≤ asciiChars text := by
  have hsplit : pathOf text ++ text.dropWhile (fun c => c ≠ '?' && c ≠ '#') = text :=
    List.takeWhile_append_dropWhile
  have hcount : asciiChars text = asciiChars (pathOf text) +
      asciiChars (text.dropWhile fun c => c ≠ '?' && c ≠ '#') := by
    conv_lhs => rw [← hsplit]
    exact List.countP_append
  cases hrest : text.dropWhile fun c => c ≠ '?' && c ≠ '#' with
  | nil =>
      rw [hrest, List.append_nil] at hsplit
      rw [if_pos hsplit, hsplit]
      exact le_refl _
  | cons c rest =>
      have hstop := List.head_dropWhile_not (fun c : Char => c ≠ '?' && c ≠ '#')
        (show text.dropWhile _ ≠ [] by rw [hrest]; simp)
      simp only [hrest, List.head_cons, Bool.and_eq_false_iff, decide_eq_false_iff_not,
        not_not] at hstop
      have hascii : asciiChars [c] = 1 := by
        rcases hstop with rfl | rfl <;> rfl
      rw [hrest, asciiChars_cons, hascii] at hcount
      split <;> omega

-- One hop hands over the identifier exactly when nothing in it means anything to the stack.
theorem hop_iff {route documentId : String} (hescape : '%' ∉ route.toList)
    (hroute : pathOf route.toList = route.toList) (hne : documentId.toList ≠ [])
    (hslash : '/' ∉ documentId.toList) :
    routeParameter route (stack.receive (stack.send (route ++ documentId))) = some documentId ↔
      pathOf documentId.toList = documentId.toList ∧ clean documentId.toList = true := by
  have hpath : pathOf (route.toList ++ documentId.toList) =
      route.toList ++ pathOf documentId.toList :=
    List.takeWhile_append_of_pos (List.takeWhile_eq_self_iff.mp hroute)
  have hreceived : stack.receive (stack.send (route ++ documentId)) =
      stack.decode (route.toList.flatMap String.utf8EncodeChar ++
        unquote (pathOf documentId.toList)) := by
    rw [receive, send, String.toList_append, hpath, unquote_quote stack.allowed_percent,
      unquote_append hescape]
  rw [hreceived, routeParameter_eq_some]
  constructor
  · rintro ⟨hdecoded, -, -⟩
    -- Whatever is cut off or decoded leaves fewer plain characters than were sent.
    have hascii := @decode_ascii stack (route.toList.flatMap String.utf8EncodeChar ++
      unquote (pathOf documentId.toList))
    rw [hdecoded, asciiChars, List.countP_append, asciiBytes, List.countP_append] at hascii
    have hfixed := asciiBytes_flatMap route.toList
    have hunquoted := asciiBytes_unquote (pathOf documentId.toList)
    have hcut := asciiChars_pathOf documentId.toList
    simp only [asciiChars, asciiBytes] at hascii hfixed hunquoted hcut
    have hwhole : pathOf documentId.toList = documentId.toList := by
      by_contra hnot
      rw [if_neg hnot] at hcut
      omega
    refine ⟨hwhole, ?_⟩
    by_contra hnot
    rw [hwhole, if_neg hnot] at hunquoted
    rw [hwhole] at hascii
    omega
  · rintro ⟨hwhole, hclean⟩
    refine ⟨?_, hne, hslash⟩
    rw [hwhole, unquote_of_clean _ hclean, ← List.flatMap_append, decode_utf8]

theorem primaryId_iff {documentId : String} (hne : documentId.toList ≠ [])
    (hslash : '/' ∉ documentId.toList) : stack.primaryId documentId = some documentId ↔
      pathOf documentId.toList = documentId.toList ∧ clean documentId.toList = true :=
  hop_iff (by decide) (by decide) hne hslash

theorem replicaId_iff {documentId : String} (hne : documentId.toList ≠ [])
    (hslash : '/' ∉ documentId.toList) : stack.replicaId documentId = some documentId ↔
      pathOf documentId.toList = documentId.toList ∧ clean documentId.toList = true :=
  hop_iff (by decide) (by decide) hne hslash

-- What becomes of an identifier is asked of these two facts and never computed.
attribute [irreducible] primaryId replicaId

theorem survives_iff_of_segment {documentId : String} (hne : documentId.toList ≠ [])
    (hslash : '/' ∉ documentId.toList) : stack.Survives documentId ↔
      '?' ∉ documentId.toList ∧ '#' ∉ documentId.toList ∧ clean documentId.toList = true := by
  rw [← and_assoc, ← pathOf_eq_self_iff, Survives]
  constructor
  · rintro ⟨hprimary, -⟩
    exact (primaryId_iff hne hslash).mp hprimary
  · intro h
    have hprimary : stack.primaryId documentId = some documentId :=
      (primaryId_iff hne hslash).mpr h
    have hreplica : stack.replicaId documentId = some documentId :=
      (replicaId_iff hne hslash).mpr h
    refine ⟨hprimary, ?_⟩
    rw [hprimary, Option.bind_some, hreplica]

-- An identifier that the public routes accept reaches the primary and the replicas unchanged
-- exactly when it has no query mark, no fragment mark and nothing that reads as an escape.
theorem document_ids_survive_iff (stack : HttpStack) (documentId : String)
    (hblank : isBlank documentId = false) (hslash : '/' ∉ documentId.toList) :
    stack.Survives documentId ↔
      '?' ∉ documentId.toList ∧ '#' ∉ documentId.toList ∧
        Percent.clean documentId.toList = true := by
  apply survives_iff_of_segment _ hslash
  intro hnil
  simp [isBlank, hnil] at hblank

section Example

-- The printable characters that a path may hold, and a mark for every byte that is not text.
def pathStack : HttpStack where
  allowed c := 0x21 ≤ c.toNat && c.toNat ≤ 0x7e && !"\"#%<>?`\x7b\x7d".toList.contains c
  replace bytes := bytes.map fun byte =>
    if byte.toNat < 128 then Char.ofNat byte.toNat else '\uFFFD'
  allowed_percent := by decide
  replace_ascii bytes := by
    rw [asciiChars, asciiBytes, List.countP_map]
    apply List.countP_mono_left
    intro byte _ h
    by_contra hnot
    simp only [decide_eq_true_eq] at hnot
    simp only [Function.comp_apply, if_neg hnot] at h
    exact absurd h (by decide)

theorem pathStack_survives {id : String} (hid : id ∈ ["a", "b", "c", " "]) :
    pathStack.Survives id := by
  have hplain : ∀ id ∈ ["a", "b", "c", " "], id.toList ≠ [] ∧ '/' ∉ id.toList ∧
      '?' ∉ id.toList ∧ '#' ∉ id.toList ∧ Percent.clean id.toList = true := by decide
  obtain ⟨hne, hslash, hclean⟩ := hplain id hid
  exact (survives_iff_of_segment hne hslash).mpr hclean

theorem spacedId_survives : pathStack.Survives "a b" :=
  (document_ids_survive_iff pathStack "a b" (by decide) (by decide)).mpr (by decide)

-- The part behind the query mark is lost, and what is left belongs to another shard.
theorem queryMark_cuts_id :
    isBlank "a?b" = false ∧ '/' ∉ "a?b".toList ∧ pathStack.primaryId "a?b" = some "a" ∧
      twoShards.shardFor "a?b" ≠ twoShards.shardFor "a" ∧ ¬pathStack.Survives "a?b" := by
  have hsame : pathStack.primaryId "a?b" = pathStack.primaryId "a" := by
    have hpath : pathOf (HttpShardClient.documentTarget "a?b").toList =
        pathOf (HttpShardClient.documentTarget "a").toList := by decide
    rw [primaryId, primaryId, send, send, hpath]
  have hcut : pathStack.primaryId "a?b" = some "a" :=
    hsame.trans ((primaryId_iff (by decide) (by decide)).mpr (by decide))
  refine ⟨by decide, by decide, hcut, by decide, ?_⟩
  rintro ⟨hprimary, -⟩
  rw [hcut] at hprimary
  exact absurd hprimary (by decide)

end Example

end HttpStack

end PySearch
