import ClassOutline.Directory
import ClassOutline.Main
import ClassOutline.Proofs.CommandLine.Runs
import ClassOutline.Proofs.ConstantPool.Lookup
import ClassOutline.Proofs.Descriptor.Embedding
import ClassOutline.Proofs.Descriptor.InPlace
import ClassOutline.Proofs.Image.Blank
import ClassOutline.Proofs.Image.Bounds
import ClassOutline.Proofs.Image.Demands
import ClassOutline.Proofs.Image.Determination
import ClassOutline.Proofs.Image.Entries
import ClassOutline.Proofs.Image.Layout
import ClassOutline.Proofs.Image.Listing
import ClassOutline.Proofs.Image.Online
import ClassOutline.Proofs.Image.Reduction
import ClassOutline.Proofs.Image.Reporting
import ClassOutline.Proofs.Image.Resumption
import ClassOutline.Proofs.Image.Signatures
import ClassOutline.Proofs.Image.Truncation
import ClassOutline.Proofs.Outline.Lookup
import ClassOutline.Proofs.Stream.Chunks
import ClassOutline.Proofs.Text.RoundTrip
import ClassOutline.Proofs.CommandLine.Logger
