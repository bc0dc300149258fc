import CacheServer.Proofs.Http.Gateway
import CacheServer.Proofs.Http.Percent
import CacheServer.Proofs.Http.Reply
import CacheServer.Proofs.Http.SetBody

/-!
# What was put is got

A value that was put under a key is got under it as it was, whatever text the key and the value are
(`answer_get_after_set`). On its way the key goes through escapes of its bytes, and key and value
go through JSON; each of these is undone by what reads it.
-/

namespace CacheServer.Http

variable {cache : Cache} {key segment : String}

/-- Behind the name of a command, the escapes of a key stand for the command on the key. -/
theorem Percent.Escapes.serves {front : String} {route : Route}
    (h : Escapes (Bytes.ofText key) (Bytes.ofText segment)) (name : List Char)
    (hfront : front.toList = '/' :: (name ++ ['/'])) (hquery : '?' ∉ front.toList)
    (hroute : Route.keyed? name key = some route) :
    Route.Serves (Route.path (front ++ segment)) route := by
  obtain ⟨hslashFree, hqueryFree⟩ := h.not_mem
  have hkey : Route.segmentKey segment.toList = key := by
    rw [Route.segmentKey, String.ofList_toList]
    exact h.decode
  rw [← hkey] at hroute
  exact Route.serves_append name hfront hquery hslashFree hqueryFree hroute

/-- What a client reads in the reply to a `GET` of a key under which a text is stored. -/
theorem members?_getReply (key value : String) :
    (getReply key (some (Bytes.ofText value))).members? =
      some [("command", .text "GET"), ("key", .text key), ("value", .text value),
        ("ok", .bool true)] := by
  have hmembers := Envelope.members?_reply
    ⟨.get, none, some key, some (Json.quote (Text.decodeLossy (Bytes.ofText value))), true⟩ 200
    (.some (Datum.text_isReadIn _))
  rw [Text.decodeLossy_ofText] at hmembers
  rw [getReply, Option.map_some, Text.decodeLossy_ofText]
  exact hmembers

/-- A text that is put under a key is got under it. The key stands in both paths with each of its
bytes escaped, and the body of the `PUT` is any JSON text of the object whose only member is
`value`. Behind it the store has the bytes of the text under the key, for good. -/
theorem answer_get_after_set (cache : Cache) (setting getting : Instant) {value : String}
    {body : Bytes} (ignored : Bytes) (hkey : key ≠ "") (hvalue : value ≠ "")
    (hsegment : Percent.Escapes (Bytes.ofText key) (Bytes.ofText segment))
    (hbody : SetBody.ValueBody value body) :
    let set := answer cache setting ⟨"PUT", "/SET/" ++ segment, body⟩
    let get := answer set.1 getting ⟨"GET", "/GET/" ++ segment, ignored⟩
    set.2.status = 200 ∧ get.2.status = 200 ∧ get.2.contentType = jsonType ∧
      get.2.members? = some [("command", .text "GET"), ("key", .text key), ("value", .text value),
        ("ok", .bool true)] ∧
      get.1.store = set.1.store ∧
      set.1.store.find? key = some ⟨Bytes.ofText value, none⟩ := by
  intro set get
  have hset : Route.Serves (Route.path ("/SET/" ++ segment)) (.set key) :=
    hsegment.serves "SET".toList rfl (by decide) rfl
  have hget : Route.Serves (Route.path ("/GET/" ++ segment)) (.get key) :=
    hsegment.serves "GET".toList rfl (by decide) rfl
  obtain ⟨hstored, hanswered⟩ : set.1.store = _ ∧ set.2 = _ :=
    answer_set hset rfl hkey hbody.read? hvalue
  obtain ⟨hkept, hreply⟩ : get.1.store = set.1.store ∧ get.2 = _ := answer_get hget rfl hkey
  rw [hstored, Store.get_set] at hreply
  refine ⟨?_, ?_, ?_, ?_, hkept, ?_⟩
  · rw [hanswered]
    rfl
  · rw [hreply]
    rfl
  · rw [hreply]
    rfl
  · rw [hreply]
    exact members?_getReply key value
  · rw [hstored]
    exact Store.find?_put_self cache.store key _

/-- A key that would be another path as it stands, and a value of signs that JSON escapes, on a
store in which an older value of the key has expired. -/
theorem answer_get_after_set_escaped :
    let key := "a/b?c=%2F\"é\r\n"
    let value := "\"\\\u0001\r\n𝄞"
    let segment := Percent.encode key
    let body := Bytes.ofText (Json.object [("value", Json.quote value)])
    let cache : Cache := ⟨Store.empty.setWithTtl ⟨0⟩ key [1] ⟨1, by decide⟩, .initial⟩
    let get := answer (answer cache ⟨5⟩ ⟨"PUT", "/SET/" ++ segment, body⟩).1 ⟨7⟩
      ⟨"GET", "/GET/" ++ segment, []⟩
    key ≠ "" ∧ value ≠ "" ∧ Percent.Escapes (Bytes.ofText key) (Bytes.ofText segment) ∧
      SetBody.ValueBody value body ∧
      get.2.members? = some [("command", .text "GET"), ("key", .text key), ("value", .text value),
        ("ok", .bool true)] := by
  intro key value segment body cache get
  have hkey : key ≠ "" := by decide
  have hvalue : value ≠ "" := by decide
  have hsegment := Percent.escapes_encode key
  have hbody := SetBody.valueBody_object value
  obtain ⟨-, -, -, hmembers, -⟩ :=
    answer_get_after_set cache ⟨5⟩ ⟨7⟩ [] hkey hvalue hsegment hbody
  exact ⟨hkey, hvalue, hsegment, hbody, hmembers⟩

end CacheServer.Http
