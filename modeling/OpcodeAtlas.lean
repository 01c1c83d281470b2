import OpcodeAtlas.Main
import OpcodeAtlas.MapFile.LayoutText
import OpcodeAtlas.Proofs.Image.Window
import OpcodeAtlas.Proofs.Signature.Occurrence
import OpcodeAtlas.Proofs.Dispatch.Call
import OpcodeAtlas.Proofs.Dispatch.Cases
import OpcodeAtlas.Proofs.Json.Canonical
import OpcodeAtlas.Proofs.Table.LastBinding
import OpcodeAtlas.Proofs.Extraction.Exact
import OpcodeAtlas.Proofs.Dispatch.Range
import OpcodeAtlas.Proofs.Dispatch.Embedding
import OpcodeAtlas.Proofs.Extraction.Dump
import OpcodeAtlas.Proofs.Opcode.RoundTrip
import OpcodeAtlas.Proofs.Dispatch.Operand
import OpcodeAtlas.Proofs.Dispatch.HeaderField
import OpcodeAtlas.Proofs.Extraction.Stage
import OpcodeAtlas.Proofs.Json.Integer
import OpcodeAtlas.Proofs.MapFile.RepeatedSlot
import OpcodeAtlas.Proofs.Signature.Spelling
import OpcodeAtlas.Proofs.Text.ByteOrder
import OpcodeAtlas.Proofs.MapFile.Commented
import OpcodeAtlas.Proofs.Signature.Rendering
import OpcodeAtlas.Proofs.Dispatch.ExpectedCount
import OpcodeAtlas.Proofs.Image.Agreement
import OpcodeAtlas.Proofs.Dispatch.Footprint
import OpcodeAtlas.Proofs.Opcode.Writes
import OpcodeAtlas.Proofs.Extraction.Ascending
import OpcodeAtlas.Proofs.Dispatch.Plan
import OpcodeAtlas.Proofs.Signature.Compaction
import OpcodeAtlas.Proofs.MapFile.LayoutSerial
import OpcodeAtlas.Proofs.MapFile.LayoutMember
import OpcodeAtlas.Proofs.Opcode.Canonical
import OpcodeAtlas.Proofs.Opcode.Recording
import OpcodeAtlas.Proofs.Image.ExactRead
import OpcodeAtlas.Proofs.Container.SectionLookup
