import CacheServer.Proofs.Contents
import CacheServer.Proofs.Http.Reply
import CacheServer.Proofs.Native.Dispatch

/-!
# What is listed, counted and got

`KEYS`, `LENGTH` and `GET` are answered by different readings of the store, and over HTTP in another
form. `Cache.ListsAs` says that all of these answers, at every reading of the clock, describe the
same list of keys. After any history that starts with nothing stored this is so, provided that
no live key has a comma or a line end in it (`listsAs_after`): with a comma the list would be cut in
more places than where the keys meet, and with a line end it would not be read at all.
-/

namespace CacheServer

open Protocol
open Bytes (crlf)
open Http (Datum)

/-! ## The list of keys -/

/-- Texts with commas between them are cut into the texts at the commas. -/
theorem Bytes.splitAt_ofText_intercalate {texts : List String} (hne : texts ≠ [])
    (hcomma : ∀ text ∈ texts, ',' ∉ text.toList) :
    Bytes.splitAt 44 (Bytes.ofText (",".intercalate texts)) = texts.map Bytes.ofText := by
  have hsep : Bytes.ofText "," = [44] := by decide
  rw [Bytes.splitAt_eq_iff (by simpa using hne), Bytes.ofText_intercalate, hsep]
  refine ⟨rfl, fun piece hpiece hmem => ?_⟩
  obtain ⟨text, htext, rfl⟩ := List.mem_map.1 hpiece
  exact hcomma text htext ((Text.mem_ofText_iff (c := ',') (by decide)).1 hmem)

/-- If none of the texts is empty, neither is what is written for them. -/
theorem Bytes.ofText_intercalate_ne_nil {texts : List String} (hne : texts ≠ [])
    (hcomma : ∀ text ∈ texts, ',' ∉ text.toList) (hempty : "" ∉ texts) :
    Bytes.ofText (",".intercalate texts) ≠ [] := by
  intro h
  have hsplit := Bytes.splitAt_ofText_intercalate hne hcomma
  rw [h] at hsplit
  obtain ⟨text, rfl, htext⟩ := List.map_eq_singleton_iff.1 hsplit.symm
  exact hempty (Bytes.ofText_eq_nil_iff.1 htext ▸ List.mem_singleton_self _)

/-- A key is got exactly if it is listed. -/
theorem Store.isSome_get_iff {s : Store} {now : Instant} {key : String} :
    (s.get now key).isSome ↔ key ∈ s.keys now := by
  rw [mem_keys_iff, get_eq_map_visible, Option.isSome_map]

/-! ## Replies to messages -/

namespace Native

variable {cache : Cache} {reading : Reading} {message : Bytes} {key : Option String}
  {value : Option Bytes}

/-- A success with a value is read back as it is, if the value is not empty and has no line end. -/
theorem parse_encode_withValue (v : Verb) {value : Bytes} (hvalue : value ≠ [])
    (hline : ¬ crlf <:+: value) :
    Response.parse (Response.encode { Response.success v with value := some value }) =
      .ok ⟨some v, true, none, none, some value⟩ := by
  have hfree : Response.LineFree { Response.success v with value := some value } := by
    refine ⟨nofun, nofun, ?_⟩
    rintro _ ⟨⟩
    exact hline
  rw [Response.parse_encode_of_lineFree hfree, (filled_withValue hvalue).normal_eq]
  rfl

/-- The reply to `LENGTH` is read back as the numeral of the number of live keys. -/
theorem parse_length_reply (h : Request.parse message = .ok ⟨some .length, key, value⟩) :
    Response.parse (execute cache reading message).2.1.encode =
      .ok ⟨some .length, true, none, none,
        some (Bytes.ofText (Nat.repr (cache.store.size reading.now)))⟩ := by
  rw [(execute_of_parse cache reading h rfl).2]
  exact parse_encode_withValue .length (mt Bytes.ofText_eq_nil_iff.1 Nat.repr_ne_empty)
    (Bytes.crlf_not_infix_of_not_mem (Text.return_not_mem_repr _))

/-- Without live keys the reply to `KEYS` is read back as a refusal. -/
theorem parse_keys_reply_of_nil (h : Request.parse message = .ok ⟨some .keys, key, value⟩)
    (hkeys : cache.store.keys reading.now = []) :
    Response.parse (execute cache reading message).2.1.encode =
      .ok ⟨some .keys, false, some "No keys", none, none⟩ := by
  have hreply : (execute cache reading message).2.1 = keysResponse (cache.store.keys reading.now) :=
    (execute_of_parse cache reading h rfl).2
  rw [hreply, hkeys]
  decide

/-- The keys are read back from the reply to `KEYS`, if no key is empty or has a comma or a line end
in it. -/
theorem parse_keys_reply (h : Request.parse message = .ok ⟨some .keys, key, value⟩)
    (hkeys : cache.store.keys reading.now ≠ []) (hempty : "" ∉ cache.store.keys reading.now)
    (hcomma : ∀ k ∈ cache.store.keys reading.now, ',' ∉ k.toList)
    (hline : ∀ k ∈ cache.store.keys reading.now, ¬ crlf <:+: Bytes.ofText k) :
    ∃ joined, Response.parse (execute cache reading message).2.1.encode =
        .ok ⟨some .keys, true, none, none, some joined⟩ ∧
      Bytes.splitAt 44 joined = (cache.store.keys reading.now).map Bytes.ofText := by
  have hresponse : keysResponse (cache.store.keys reading.now) = { Response.success .keys with
      value := some (Bytes.ofText (",".intercalate (cache.store.keys reading.now))) } :=
    if_neg (mt List.isEmpty_iff.1 hkeys)
  have hreply : (execute cache reading message).2.1 = keysResponse (cache.store.keys reading.now) :=
    (execute_of_parse cache reading h rfl).2
  refine ⟨_, ?_, Bytes.splitAt_ofText_intercalate hkeys hcomma⟩
  rw [hreply, hresponse]
  exact parse_encode_withValue .keys (Bytes.ofText_intercalate_ne_nil hkeys hcomma hempty)
    (crlf_not_infix_intercalate hline)

/-- A `GET` of a key succeeds exactly if the key is listed. -/
theorem ok_get_reply_iff {k : String} (h : Request.parse message = .ok ⟨some .get, some k, value⟩)
    (hk : k ≠ "") (hvalue : ∀ v ∈ value, v = []) :
    (execute cache reading message).2.1.ok = true ↔ k ∈ cache.store.keys reading.now := by
  rw [(execute_get h hk hvalue).2, ← Store.isSome_get_iff]
  cases cache.store.get reading.now k with
  | none => exact iff_of_false nofun nofun
  | some found => exact iff_of_true rfl rfl

end Native

/-! ## Replies over HTTP -/

namespace Http

variable {cache : Cache} {now : Instant} {request : Request}

/-- Over HTTP the answer to `KEYS` has the list of live keys. -/
theorem member?_keys_reply (hpath : Route.Serves (Route.path request.target) .keys)
    (hmethod : request.method = "GET") :
    (answer cache now request).2.status = 200 ∧
      (answer cache now request).2.member? "value" = some (.texts (cache.store.keys now)) := by
  rw [answer_of_serves cache now hpath hmethod]
  exact ⟨rfl, (Envelope.member?_reply _ 200 (.some (Datum.texts_isReadIn _))).2.2.2.1⟩

/-- Over HTTP the answer to `LENGTH` has the number of live keys. -/
theorem member?_length_reply (hpath : Route.Serves (Route.path request.target) .length)
    (hmethod : request.method = "GET") :
    (answer cache now request).2.status = 200 ∧
      (answer cache now request).2.member? "value" =
        some (.number (Bytes.ofText (Nat.repr (cache.store.size now)))) := by
  rw [answer_of_serves cache now hpath hmethod]
  exact ⟨rfl, (Envelope.member?_reply _ 200 (.some (Datum.number_isReadIn _))).2.2.2.1⟩

end Http

/-! ## One list -/

/-- Every answer of a cache about its keys describes one list of them: it is this list that `KEYS`
gives and `LENGTH` counts, in messages and over HTTP, and a `GET` succeeds for what is in it. -/
structure Cache.ListsAs (cache : Cache) (listed : List String) : Prop where
  distinct : listed.Nodup
  not_empty : "" ∉ listed
  length : ∀ (reading : Reading) (message : Bytes) (key : Option String) (value : Option Bytes),
    Request.parse message = .ok ⟨some .length, key, value⟩ →
      Response.parse (Native.execute cache reading message).2.1.encode =
        .ok ⟨some .length, true, none, none, some (Bytes.ofText (Nat.repr listed.length))⟩
  noKeys : listed = [] →
    ∀ (reading : Reading) (message : Bytes) (key : Option String) (value : Option Bytes),
      Request.parse message = .ok ⟨some .keys, key, value⟩ →
        Response.parse (Native.execute cache reading message).2.1.encode =
          .ok ⟨some .keys, false, some "No keys", none, none⟩
  /-- The value is cut at every comma. -/
  keys : listed ≠ [] →
    ∀ (reading : Reading) (message : Bytes) (key : Option String) (value : Option Bytes),
      Request.parse message = .ok ⟨some .keys, key, value⟩ →
        ∃ joined, Response.parse (Native.execute cache reading message).2.1.encode =
            .ok ⟨some .keys, true, none, none, some joined⟩ ∧
          Bytes.splitAt 44 joined = listed.map Bytes.ofText
  get : ∀ (reading : Reading) (message : Bytes) (key : String) (value : Option Bytes),
    Request.parse message = .ok ⟨some .get, some key, value⟩ → key ≠ "" → (∀ v ∈ value, v = []) →
      ((Native.execute cache reading message).2.1.ok = true ↔ key ∈ listed)
  httpLength : ∀ (now : Instant) (request : Http.Request),
    Http.Route.Serves (Http.Route.path request.target) .length → request.method = "GET" →
      (Http.answer cache now request).2.status = 200 ∧
        (Http.answer cache now request).2.member? "value" =
          some (.number (Bytes.ofText (Nat.repr listed.length)))
  httpKeys : ∀ (now : Instant) (request : Http.Request),
    Http.Route.Serves (Http.Route.path request.target) .keys → request.method = "GET" →
      (Http.answer cache now request).2.status = 200 ∧
        (Http.answer cache now request).2.member? "value" = some (.texts listed)

/-- Without deadlines the readings of the store agree at all times. -/
theorem listsAs_keys {cache : Cache} {now : Instant} (hlasting : cache.store.Lasting)
    (hempty : "" ∉ cache.store.keys now) (hcomma : ∀ key ∈ cache.store.keys now, ',' ∉ key.toList)
    (hline : ∀ key ∈ cache.store.keys now, ¬ crlf <:+: Bytes.ofText key) :
    cache.ListsAs (cache.store.keys now) := by
  have hkeys : ∀ other, cache.store.keys other = cache.store.keys now := fun other => by
    rw [hlasting.keys_eq, hlasting.keys_eq]
  have hsize : ∀ other, cache.store.size other = (cache.store.keys now).length := fun other => by
    rw [Store.size_eq_length_keys, hkeys]
  exact
    { distinct := cache.store.nodup_keys now
      not_empty := hempty
      length := fun reading message key value h => hsize reading.now ▸ Native.parse_length_reply h
      noKeys := fun hnil reading message key value h =>
        Native.parse_keys_reply_of_nil h ((hkeys reading.now).trans hnil)
      keys := fun hne reading message key value h => by
        rw [← hkeys reading.now] at hne hempty hcomma hline ⊢
        exact Native.parse_keys_reply h hne hempty hcomma hline
      get := fun reading message key value h hkey hvalue =>
        hkeys reading.now ▸ Native.ok_get_reply_iff h hkey hvalue
      httpLength := fun other request hpath hmethod =>
        hsize other ▸ Http.member?_length_reply hpath hmethod
      httpKeys := fun other request hpath hmethod =>
        hkeys other ▸ Http.member?_keys_reply hpath hmethod }

/-- No key that is listed after a history is empty. -/
theorem empty_not_mem_keys_after (metrics : Metrics) (history : List Step) (now : Instant) :
    "" ∉ ((Cache.mk .empty metrics).after history).store.keys now := by
  rw [(Cache.lasting_after Store.lasting_empty history).keys_eq]
  intro h
  obtain ⟨entry, hentry, hkey⟩ := List.mem_map.1 h
  obtain ⟨-, step, -, hset⟩ := exists_performs_set_of_mem hentry
  exact (Step.ne_of_performs_set hset).1 hkey

/-- After messages and requests in any order, `KEYS`, `LENGTH` and `GET` describe the same keys, in
messages and over HTTP, if no live key has a comma or a line end in it. -/
theorem listsAs_after (metrics : Metrics) (history : List Step) (now : Instant) :
    let cache := (Cache.mk .empty metrics).after history
    (∀ key ∈ cache.store.keys now, ',' ∉ key.toList ∧ ¬ crlf <:+: Bytes.ofText key) →
      cache.ListsAs (cache.store.keys now) := by
  intro cache h
  exact listsAs_keys (Cache.lasting_after Store.lasting_empty history)
    (empty_not_mem_keys_after metrics history now) (fun key hkey => (h key hkey).1)
    fun key hkey => (h key hkey).2

/-- Two keys from the two interfaces, after a third one with a comma in it was deleted again. -/
theorem listsAs_after_delete :
    let setting := Request.encode ⟨some .set, some "a", some [255]⟩
    let setting' := Request.encode ⟨some .set, some "x,y", some [1]⟩
    let put : Http.Request := ⟨"PUT", "/SET/%c3%a9", Bytes.ofText "\x7b\"value\":\"é\"\x7d"⟩
    let deleting : Http.Request := ⟨"DELETE", "/DELETE/x,y", []⟩
    let cache := Cache.initial.after
      [.message ⟨⟨0⟩, 0⟩ setting, .message ⟨⟨1⟩, 0⟩ setting', .request ⟨2⟩ put,
        .request ⟨3⟩ deleting]
    (∀ key ∈ cache.store.keys ⟨4⟩, ',' ∉ key.toList ∧ ¬ crlf <:+: Bytes.ofText key) ∧
      cache.ListsAs ["é", "a"] := by
  intro setting setting' put deleting cache
  have hkeys : cache.store.keys ⟨4⟩ = ["é", "a"] := by decide
  have hfree : ∀ key ∈ cache.store.keys ⟨4⟩, ',' ∉ key.toList ∧ ¬ crlf <:+: Bytes.ofText key := by
    rw [hkeys]
    decide
  exact ⟨hfree, hkeys ▸ listsAs_after .initial _ ⟨4⟩ hfree⟩

end CacheServer
