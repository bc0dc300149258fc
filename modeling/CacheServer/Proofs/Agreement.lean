import CacheServer.Proofs.Http.Gateway
import CacheServer.Proofs.Http.Reply
import CacheServer.Proofs.Http.SetBody

/-!
# Both interfaces say the same

`Corresponds` pairs the messages with the requests over HTTP that ask for the same. On the same
cache and at the same instant they do the same to the store and are answered the same
(`execute_answer_agree`), as far as the two forms of an answer allow. They differ in one place:
where no key is live, `KEYS` is refused in a message and answered with the empty list over HTTP.

What is answered is what a client reads: the fields of the response, and the members of the JSON
object in the body of the reply.
-/

namespace CacheServer

open Protocol
open Bytes (crlf)
open Http (Datum)

/-- The segments of a path that stand for a key, where the key is one that a message can hold. -/
structure IsSegment (seg key : String) : Prop where
  slash_free : '/' ∉ seg.toList
  query_free : '?' ∉ seg.toList
  decode : Http.Percent.decode (Bytes.ofText seg) = key
  not_empty : key ≠ ""
  line_free : ¬ crlf <:+: Bytes.ofText key

/-- The requests of both interfaces that ask for the same. The body matters only to a `PUT`. -/
inductive Corresponds : Request → Http.Request → Prop
  | set {seg key value : String} {body : Bytes} : IsSegment seg key → value ≠ "" →
      Http.SetBody.ValueBody value body →
      Corresponds ⟨some .set, some key, some (Bytes.ofText value)⟩ ⟨"PUT", "/SET/" ++ seg, body⟩
  | get {seg key : String} {body : Bytes} : IsSegment seg key →
      Corresponds ⟨some .get, some key, none⟩ ⟨"GET", "/GET/" ++ seg, body⟩
  | delete {seg key : String} {body : Bytes} : IsSegment seg key →
      Corresponds ⟨some .delete, some key, none⟩ ⟨"DELETE", "/DELETE/" ++ seg, body⟩
  | purge {body : Bytes} : Corresponds ⟨some .purge, none, none⟩ ⟨"DELETE", "/PURGE", body⟩
  | length {body : Bytes} : Corresponds ⟨some .length, none, none⟩ ⟨"GET", "/LENGTH", body⟩
  | keys {body : Bytes} : Corresponds ⟨some .keys, none, none⟩ ⟨"GET", "/KEYS", body⟩
  | ping {body : Bytes} : Corresponds ⟨some .ping, none, none⟩ ⟨"GET", "/PING", body⟩

/-- The same outcome of a request, in a response and in a reply over HTTP. -/
structure SameOutcome (store : Store) (now : Instant) (r : Request) (native : Response)
    (http : Http.Reply) : Prop where
  status : http.status = 200
  verb : native.verb = r.verb ∧ http.member? "command" = r.verb.map (.text ·.token)
  key : native.key = r.key ∧ http.member? "key" = r.key.map .text
  /-- The one difference. -/
  noKeys : r.verb = some .keys ∧ store.keys now = [] →
    native.ok = false ∧ http.member? "ok" = some (.bool true)
  ok : ¬ (r.verb = some .keys ∧ store.keys now = []) →
    http.member? "ok" = some (.bool native.ok)
  message : native.ok = true → http.member? "message" = native.message.map .text
  length : r.verb = some .length →
    native.value = some (Bytes.ofText (Nat.repr (store.size now))) ∧
      http.member? "value" = some (.number (Bytes.ofText (Nat.repr (store.size now))))
  keys : r.verb = some .keys → http.member? "value" = some (.texts (store.keys now)) ∧
    (store.keys now ≠ [] → native.value = some (Bytes.ofText (",".intercalate (store.keys now))))
  text : r.verb = some .get → ∀ key ∈ r.key, ∀ text,
    store.get now key = some (Bytes.ofText text) →
      native.value = some (Bytes.ofText text) ∧ http.member? "value" = some (.text text)

variable {cache : Cache} {reading : Reading} {r : Request} {request : Http.Request}

/-- A segment that stands for a key is decoded to it. -/
theorem IsSegment.segmentKey {seg key : String} (h : IsSegment seg key) :
    Http.Route.segmentKey seg.toList = key := by
  rw [Http.Route.segmentKey, String.ofList_toList, h.decode]

/-- The message of a request that has a counterpart over HTTP is read as it is. -/
theorem Corresponds.parse_encode (h : Corresponds r request) :
    Request.parse r.encode = .ok r := by
  have hkey : ∀ {seg key : String}, IsSegment seg key →
      ∀ k ∈ some key, ¬ crlf <:+: Bytes.ofText k := by
    rintro seg key hseg _ ⟨⟩
    exact hseg.line_free
  cases h with
  | set hseg | get hseg | delete hseg => exact Request.parse_encode (by simp) (hkey hseg)
  | purge | length | keys | ping => exact Request.parse_encode (by simp) nofun

/-- The path of a command on a key. -/
theorem IsSegment.serves {seg key front : String} {route : Http.Route} (h : IsSegment seg key)
    (name : List Char) (hfront : front.toList = '/' :: (name ++ ['/']))
    (hquery : '?' ∉ front.toList) (hroute : Http.Route.keyed? name key = some route) :
    Http.Route.Serves (Http.Route.path (front ++ seg)) route :=
  Http.Route.serves_append name hfront hquery h.slash_free h.query_free (h.segmentKey ▸ hroute)

/-! ## The answers -/

section Outcome

variable {store : Store} {now : Instant}

/-- The commands that answer without a value. -/
theorem sameOutcome_of_no_value {v : Verb} (hv : v ∉ [Verb.get, .length, .keys])
    (message key : Option String) (value : Option Bytes) :
    SameOutcome store now ⟨some v, key, value⟩ ⟨some v, true, message, key, none⟩
      (Http.Envelope.reply ⟨v, message, key, none, true⟩ 200) := by
  obtain ⟨hcommand, hmessage, hkey, -, hok⟩ :=
    Http.Envelope.member?_reply ⟨v, message, key, none, true⟩ 200 .none
  have hne : ∀ w ∈ [Verb.get, .length, .keys], some v ≠ some w := by
    rintro w hw ⟨⟩
    exact hv hw
  exact
    { status := rfl
      verb := ⟨rfl, hcommand⟩
      key := ⟨rfl, hkey⟩
      noKeys := fun h => absurd h.1 (hne _ (by decide))
      ok := fun _ => hok
      message := fun _ => hmessage
      length := fun h => absurd h (hne _ (by decide))
      keys := fun h => absurd h (hne _ (by decide))
      text := fun h => absurd h (hne _ (by decide)) }

/-- Both answers to `GET` tell whether there is a value, and which. -/
theorem sameOutcome_get (key : String) :
    SameOutcome store now ⟨some .get, some key, none⟩ (Native.getReply key (store.get now key))
      (Http.getReply key (store.get now key)) := by
  cases hfound : store.get now key with
  | none =>
    obtain ⟨hcommand, -, hkey, -, hok⟩ :=
      Http.Envelope.member?_reply ⟨.get, none, some key, none, false⟩ 200 .none
    exact
      { status := rfl
        verb := ⟨rfl, hcommand⟩
        key := ⟨rfl, hkey⟩
        noKeys := by simp
        ok := fun _ => hok
        message := by simp [Native.getReply, Response.rejection]
        length := by simp
        keys := by simp
        text := by simp [hfound] }
  | some value =>
    obtain ⟨hcommand, hmessage, hkey, hvalue, hok⟩ := Http.Envelope.member?_reply
      ⟨.get, none, some key, some (Json.quote (Text.decodeLossy value)), true⟩ 200
      (.some (Datum.text_isReadIn _))
    exact
      { status := rfl
        verb := ⟨rfl, hcommand⟩
        key := ⟨rfl, hkey⟩
        noKeys := by simp
        ok := fun _ => hok
        message := fun _ => hmessage
        length := by simp
        keys := by simp
        text := by
          intro _ k hk text htext
          obtain rfl : key = k := Option.some.inj hk
          obtain rfl : value = Bytes.ofText text := Option.some.inj (hfound.symm.trans htext)
          have hshown : (Http.getReply key (some (Bytes.ofText text))).member? "value" =
              some (.text (Text.decodeLossy (Bytes.ofText text))) := hvalue
          rw [Text.decodeLossy_ofText] at hshown
          exact ⟨rfl, hshown⟩ }

/-- Both answers to `LENGTH` tell the same number. -/
theorem sameOutcome_length :
    SameOutcome store now ⟨some .length, none, none⟩
      { Response.success .length with value := some (Bytes.ofText (Nat.repr (store.size now))) }
      (Http.Envelope.reply ⟨.length, none, none, some (Nat.repr (store.size now)), true⟩ 200) := by
  obtain ⟨hcommand, hmessage, hkey, hvalue, hok⟩ := Http.Envelope.member?_reply
    ⟨.length, none, none, some (Nat.repr (store.size now)), true⟩ 200
    (.some (Datum.number_isReadIn _))
  exact
    { status := rfl
      verb := ⟨rfl, hcommand⟩
      key := ⟨rfl, hkey⟩
      noKeys := by simp
      ok := fun _ => hok
      message := fun _ => hmessage
      length := fun _ => ⟨rfl, hvalue⟩
      keys := by simp
      text := by simp }

/-- Both answers to `KEYS` list the same keys, where the native one refuses if there are none. -/
theorem sameOutcome_keys :
    SameOutcome store now ⟨some .keys, none, none⟩ (Native.keysResponse (store.keys now))
      (Http.Envelope.reply
        ⟨.keys, none, none, some (Json.array ((store.keys now).map Json.quote)), true⟩ 200) := by
  obtain ⟨hcommand, hmessage, hkey, hvalue, hok⟩ := Http.Envelope.member?_reply
    ⟨.keys, none, none, some (Json.array ((store.keys now).map Json.quote)), true⟩ 200
    (.some (Datum.texts_isReadIn _))
  by_cases hkeys : store.keys now = []
  · have hresponse : Native.keysResponse (store.keys now) = .rejection .keys Native.noKeys none :=
      if_pos (by rw [hkeys]; rfl)
    rw [hresponse]
    exact
      { status := rfl
        verb := ⟨rfl, hcommand⟩
        key := ⟨rfl, hkey⟩
        noKeys := fun _ => ⟨rfl, hok⟩
        ok := fun hne => absurd ⟨rfl, hkeys⟩ hne
        message := by simp [Response.rejection]
        length := by simp
        keys := fun _ => ⟨hvalue, fun hne => absurd hkeys hne⟩
        text := by simp }
  · have hresponse : Native.keysResponse (store.keys now) =
        ⟨some .keys, true, none, none, some (Bytes.ofText (",".intercalate (store.keys now)))⟩ :=
      if_neg (by simpa using hkeys)
    rw [hresponse]
    exact
      { status := rfl
        verb := ⟨rfl, hcommand⟩
        key := ⟨rfl, hkey⟩
        noKeys := fun h => absurd h.2 hkeys
        ok := fun _ => hok
        message := fun _ => hmessage
        length := by simp
        keys := fun _ => ⟨hvalue, fun _ => rfl⟩
        text := by simp }

end Outcome

/-- A command that does the same on both sides and answers the same does so between any requests
for it. -/
theorem agree_of_perform {cache : Cache} {reading : Reading} {v : Verb} (route : Http.Route)
    (hparse : Request.parse r.encode = .ok r) (hverb : r.verb = some v)
    (hroute : Http.Route.ofTarget? request.target = some route)
    (hmethod : request.method = route.method)
    (hstore : (Native.perform { cache with metrics := cache.metrics.countCommand v }
        reading.now v r).1.store =
      (Http.perform (Http.count cache route) reading.now request.body route).1.store)
    (hsame : SameOutcome cache.store reading.now r
      (Native.perform { cache with metrics := cache.metrics.countCommand v } reading.now v r).2
      (Http.perform (Http.count cache route) reading.now request.body route).2) :
    (Native.execute cache reading r.encode).1.store =
        (Http.answer cache reading.now request).1.store ∧
      SameOutcome cache.store reading.now r (Native.execute cache reading r.encode).2.1
        (Http.answer cache reading.now request).2 := by
  obtain ⟨hnative, hresponse⟩ := Native.execute_of_parse cache reading hparse hverb
  have hhttp := Http.answer_of_serves cache reading.now
    (Http.Route.ofTarget?_eq_some_iff.1 hroute) hmethod
  rw [hnative, hresponse, hhttp]
  exact ⟨hstore, hsame⟩

/-- A message and the request over HTTP that asks for the same, on the same cache and at the same
instant, leave the same store behind and have the same outcome. -/
theorem execute_answer_agree (cache : Cache) (reading : Reading) (h : Corresponds r request) :
    let native := Native.execute cache reading r.encode
    let http := Http.answer cache reading.now request
    native.1.store = http.1.store ∧
      SameOutcome cache.store reading.now r native.2.1 http.2 := by
  intro native http
  have hparse := h.parse_encode
  cases h with
  | @set seg key value body hseg hvalue hbody =>
    obtain ⟨hstore, hnative⟩ : native.1.store = _ ∧ native.2.1 = _ :=
      Native.execute_set hparse hseg.not_empty (by simpa using hvalue)
    obtain ⟨hstore', hhttp⟩ : http.1.store = _ ∧ http.2 = _ :=
      Http.answer_set (hseg.serves "SET".toList rfl (by decide) rfl) rfl hseg.not_empty hbody.read?
        hvalue
    rw [hstore, hstore', hnative, hhttp]
    exact ⟨rfl, sameOutcome_of_no_value (by decide) none (some key) _⟩
  | @get seg key body hseg =>
    obtain ⟨hstore, hnative⟩ : native.1.store = _ ∧ native.2.1 = _ :=
      Native.execute_get hparse hseg.not_empty nofun
    obtain ⟨hstore', hhttp⟩ : http.1.store = _ ∧ http.2 = _ :=
      Http.answer_get (hseg.serves "GET".toList rfl (by decide) rfl) rfl hseg.not_empty
    rw [hstore, hstore', hnative, hhttp]
    exact ⟨rfl, sameOutcome_get key⟩
  | @delete seg key body hseg =>
    obtain ⟨hstore, hnative⟩ : native.1.store = _ ∧ native.2.1 = _ :=
      Native.execute_delete hparse hseg.not_empty nofun
    obtain ⟨hstore', hhttp⟩ : http.1.store = _ ∧ http.2 = _ :=
      Http.answer_delete (hseg.serves "DELETE".toList rfl (by decide) rfl) rfl hseg.not_empty
    rw [hstore, hstore', hnative, hhttp]
    exact ⟨rfl, sameOutcome_of_no_value (by decide) none (some key) none⟩
  | purge =>
    have hroute : Http.Route.ofTarget? "/PURGE" = some .purge := by decide
    exact agree_of_perform .purge hparse rfl hroute rfl rfl
      (sameOutcome_of_no_value (by decide) none none none)
  | length =>
    have hroute : Http.Route.ofTarget? "/LENGTH" = some .length := by decide
    exact agree_of_perform .length hparse rfl hroute rfl rfl sameOutcome_length
  | keys =>
    have hroute : Http.Route.ofTarget? "/KEYS" = some .keys := by decide
    exact agree_of_perform .keys hparse rfl hroute rfl rfl sameOutcome_keys
  | ping =>
    have hroute : Http.Route.ofTarget? "/PING" = some .ping := by decide
    exact agree_of_perform .ping hparse rfl hroute rfl rfl
      (sameOutcome_of_no_value (by decide) (some Native.pong) none none)

/-- A key with a slash in it, and the keys of an empty store. -/
theorem execute_answer_agree_slash :
    let setting : Request := ⟨some .set, some "a/b", some (Bytes.ofText "é")⟩
    let put : Http.Request :=
      ⟨"PUT", "/SET/a%2fb", Bytes.ofText (Json.object [("value", Json.quote "é")])⟩
    let listing : Http.Request := ⟨"GET", "/KEYS", []⟩
    Corresponds setting put ∧ Corresponds ⟨some .keys, none, none⟩ listing ∧
      (Native.execute .initial ⟨⟨0⟩, 0⟩ setting.encode).1.store =
        (Http.answer .initial ⟨0⟩ put).1.store ∧
      (Http.answer .initial ⟨0⟩ put).2.member? "key" = some (.text "a/b") ∧
      (Http.answer .initial ⟨0⟩ listing).2.member? "ok" = some (.bool true) := by
  intro setting put listing
  have hseg : IsSegment "a%2fb" "a/b" := by constructor <;> decide
  have hput : Corresponds setting put :=
    .set hseg (by decide) (Http.SetBody.valueBody_object "é")
  have hlisting : Corresponds ⟨some .keys, none, none⟩ listing := .keys
  obtain ⟨hstore, hsame⟩ := execute_answer_agree .initial ⟨⟨0⟩, 0⟩ hput
  obtain ⟨-, hkeys⟩ := execute_answer_agree .initial ⟨⟨0⟩, 0⟩ hlisting
  exact ⟨hput, hlisting, hstore, hsame.key.2, (hkeys.noKeys ⟨rfl, rfl⟩).2⟩

end CacheServer
