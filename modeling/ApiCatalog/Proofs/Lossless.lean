import ApiCatalog.Proofs.Json.Text
import ApiCatalog.Proofs.Store.Snapshot

/-!
# Wire forms that lose nothing

What a lawful wire form writes is read as it was, be it from the JSON value or from the text of that
value. Main statement: the wire forms of catalog entries, exports, bindings and snapshots lose
nothing (`wire_lossless`).
-/
namespace ApiCatalog

/-- The wire form of a type, read and written any number of times, keeps every value. -/
structure Lossless (α : Type) [Wire α] : Prop where
  /-- What is written is read as it was, however strictly. -/
  decoded (strictness : Strictness) (a : α) : decode strictness (encode a) = some a
  /-- The text of what is written holds just that. -/
  parsed (a : α) : Json.ofText? (encode a).toText = some (encode a)
  /-- What was read from any JSON value is read again from what is written for it. -/
  decoded_again {first second : Strictness} {json : Json} {a : α} :
    decode first json = some a → decode second (encode a) = some a
  /-- What is written for it is then always the same. -/
  encoded_again {first second : Strictness} {json : Json} {a : α} : decode first json = some a →
    (decode second (encode a)).map (encode : α → Json) = some (encode a)

theorem Lossless.of_lawful {α : Type} {height : Nat} [Wire α] [LawfulWire α height] :
    Lossless α where
  decoded strictness a := decode_encode strictness a
  parsed a := (LawfulWire.plain 0 a).ofText?_toText
  decoded_again _ := decode_encode _ _
  encoded_again _ := by rw [decode_encode, Option.map_some]

/-- Every entry, export, binding and snapshot is read as it was written. So whatever JSON value one
was read from, what is written for it and read again is the same, and so is what is written then. -/
theorem wire_lossless :
    Lossless CatalogEntry ∧ Lossless ApiExport ∧ Lossless ApiBinding ∧ Lossless Snapshot :=
  ⟨.of_lawful, .of_lawful, .of_lawful, .of_lawful⟩

/-- What is empty is left out, or written as an empty text. -/
example : (encode (ApiBinding.mk (.named "") ⟨"", ""⟩ [] .pending)).toText =
    "\x7b\"metadata\":\x7b\"resourceVersion\":0\x7d,\"spec\":\x7b\"reference\":" ++
      "\x7b\"workspace\":\x7b\"path\":\"\",\"exportName\":\"\"\x7d\x7d\x7d," ++
      "\"status\":\x7b\"phase\":\"\"\x7d\x7d" := by
  decide +kernel

end ApiCatalog
