import Offload.Message.Client
import Offload.Proofs.Json.Order
import Offload.Proofs.Message.RoundTrip

/-!
# What the client writes is read as it was meant

The client writes two messages: to the scheduler that a job is to be compiled, and to the worker what
the job is. Whatever characters the arguments of a job have, a reader of JSON finds in the text just
the fields of the message, each of them once and with its value (`controlFrames_decode`). So no two
jobs are written alike.
-/

namespace Offload

namespace Json

/-- The text is an object with these fields, each of them once: it holds them in this order, and they
are what a reader makes of it. -/
structure DecodesTo (text : String) (fields : Fields) : Prop where
  holds : HoldsFields text fields
  once : (fields.map Prod.fst).Nodup
  read : ∃ decoded, parse? text = some (.object decoded) ∧ decoded.Perm fields

variable {text : String} {fields fields' : Fields}

theorem decodesTo_render (hplain : Plain maxDepth (.object fields))
    (hcanonical : canonicalFields fields = fields) (honce : (fields.map Prod.fst).Nodup) :
    DecodesTo (Json.object fields).render fields := by
  have hholds := holdsFields_render hplain
  rw [hcanonical] at hholds
  exact ⟨hholds, honce, _, hholds.parse?_eq, Fields.sorted_perm honce⟩

/-- A text is read in one way only. -/
theorem DecodesTo.mem (h : DecodesTo text fields) (h' : DecodesTo text fields')
    {field : String × Json} (hfield : field ∈ fields) : field ∈ fields' := by
  obtain ⟨decoded, hread, hperm⟩ := h.read
  obtain ⟨decoded', hread', hperm'⟩ := h'.read
  obtain rfl : decoded = decoded' := by
    rw [hread] at hread'
    simpa using hread'
  exact hperm'.mem_iff.mp (hperm.mem_iff.mpr hfield)

theorem canonical_strings (items : List String) : (Json.strings items).canonical = .strings items := by
  have hitem (s : String) : canonical (.string s) = .string s := by rw [canonical]
  rw [Json.strings, canonical, canonicalItems_eq_map, List.map_map]
  exact congrArg Json.array (List.map_congr_left fun s _ => hitem s)

theorem strings_injective : Function.Injective Json.strings := by
  intro items items' h
  have hmap : items.map Json.string = items'.map Json.string := Json.array.inj h
  exact List.map_injective_iff.mpr (fun _ _ => Json.string.inj) hmap

theorem nat_injective : Function.Injective Json.nat := by
  intro n n' h
  have hint : (n : Int) = n' := Json.Number.int.inj (Json.number.inj h)
  exact Int.ofNat_inj.mp hint

end Json

open Json

theorem Announcement.decodesTo_encode (a : Announcement) :
    DecodesTo a.encode [("client", .string a.client), ("type", .string "compile")] := by
  refine decodesTo_render ?_ ?_ (by simp)
  · simp [Plain, PlainFields, maxDepth]
  · simp [canonicalFields, canonical]

theorem JobEnvelope.decodesTo_encode (e : JobEnvelope) :
    DecodesTo e.encode [("type", .string "job"), ("commandLine", .strings e.commandLine),
      ("argv0", .string e.argv0), ("wait", .bool e.wait), ("bytes", .nat e.bytes.toNat)] := by
  refine decodesTo_render ?_ ?_ (by simp)
  · simp only [Plain, PlainFields, and_true]
    exact ⟨by decide, trivial, (Inverts.strings _).plain e.commandLine, trivial, trivial,
      (Inverts.uint64 _).plain e.bytes⟩
  · have hbytes : (Json.nat e.bytes.toNat).canonical = .nat e.bytes.toNat := by
      rw [Json.nat, canonical]
    simp only [canonicalFields, canonical_strings, hbytes, canonical]

theorem Announcement.encode_injective : Function.Injective Announcement.encode := by
  intro a b h
  have hb := b.decodesTo_encode
  rw [← h] at hb
  have hclient := a.decodesTo_encode.mem hb (.head _)
  cases a
  cases b
  simpa using hclient

theorem JobEnvelope.encode_injective : Function.Injective JobEnvelope.encode := by
  intro e f h
  have he := e.decodesTo_encode
  have hf := f.decodesTo_encode
  rw [← h] at hf
  have hline : e.commandLine = f.commandLine :=
    strings_injective (by simpa using he.mem hf (.tail _ (.head _)))
  have hargv0 : e.argv0 = f.argv0 := by
    simpa using he.mem hf (.tail _ (.tail _ (.head _)))
  have hwait : e.wait = f.wait := by
    simpa using he.mem hf (.tail _ (.tail _ (.tail _ (.head _))))
  have hbytes : e.bytes = f.bytes := UInt64.toNat_inj.mp <|
    nat_injective (by simpa using he.mem hf (.tail _ (.tail _ (.tail _ (.tail _ (.head _))))))
  cases e
  cases f
  simp only [JobEnvelope.mk.injEq]
  exact ⟨hline, hargv0, hwait, hbytes⟩

/-- What the client writes is JSON: a reader finds in it the fields of the message and no others, each
of them once and with its very value. So different messages are written differently. -/
theorem controlFrames_decode :
    (∀ a : Announcement,
        DecodesTo a.encode [("client", .string a.client), ("type", .string "compile")]) ∧
      (∀ e : JobEnvelope,
        DecodesTo e.encode [("type", .string "job"), ("commandLine", .strings e.commandLine),
          ("argv0", .string e.argv0), ("wait", .bool e.wait), ("bytes", .nat e.bytes.toNat)]) ∧
      Function.Injective Announcement.encode ∧ Function.Injective JobEnvelope.encode :=
  ⟨Announcement.decodesTo_encode, JobEnvelope.decodesTo_encode, Announcement.encode_injective,
    JobEnvelope.encode_injective⟩

end Offload
