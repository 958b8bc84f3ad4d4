import AddonExchange.Admission.CaseClash
import AddonExchange.Admission.Findings
import AddonExchange.Admission.IllegalNames
import AddonExchange.Admission.Report
import AddonExchange.Bytes.Base64
import AddonExchange.Bytes.Basic
import AddonExchange.Bytes.Escape
import AddonExchange.Bytes.Md5
import AddonExchange.Category
import AddonExchange.Name
import AddonExchange.Proofs.Admission.AddonReport
import AddonExchange.Proofs.Admission.Addressing
import AddonExchange.Proofs.Admission.Admitted
import AddonExchange.Proofs.Admission.CaseClash
import AddonExchange.Proofs.Admission.ClashReport
import AddonExchange.Proofs.Admission.Collecting
import AddonExchange.Proofs.Admission.FileNames
import AddonExchange.Proofs.Admission.IllegalNames
import AddonExchange.Proofs.Admission.IllegalReport
import AddonExchange.Proofs.Admission.Name
import AddonExchange.Proofs.Admission.Paths
import AddonExchange.Proofs.Admission.ReportedPaths
import AddonExchange.Proofs.Bytes.Escape
import AddonExchange.Proofs.Service.Exchange
import AddonExchange.Proofs.Service.UpToDate
import AddonExchange.Proofs.Settings.Bounds
import AddonExchange.Proofs.Settings.Expansion
import AddonExchange.Proofs.Settings.KnownKeys
import AddonExchange.Proofs.Settings.Precedence
import AddonExchange.Proofs.Settings.Validation
import AddonExchange.Proofs.Sync.Addition
import AddonExchange.Proofs.Sync.Admission
import AddonExchange.Proofs.Sync.Classification
import AddonExchange.Proofs.Sync.Containment
import AddonExchange.Proofs.Sync.Contents
import AddonExchange.Proofs.Sync.Convergence
import AddonExchange.Proofs.Sync.Depth
import AddonExchange.Proofs.Sync.Difference
import AddonExchange.Proofs.Sync.DifferenceLaws
import AddonExchange.Proofs.Sync.DifferenceWalk
import AddonExchange.Proofs.Sync.Entries
import AddonExchange.Proofs.Sync.FileHash
import AddonExchange.Proofs.Sync.Following
import AddonExchange.Proofs.Sync.Frames
import AddonExchange.Proofs.Sync.HashList
import AddonExchange.Proofs.Sync.HashListing
import AddonExchange.Proofs.Sync.Layout
import AddonExchange.Proofs.Sync.Listing
import AddonExchange.Proofs.Sync.Minimality
import AddonExchange.Proofs.Sync.Naming
import AddonExchange.Proofs.Sync.Removal
import AddonExchange.Proofs.Sync.UpToDate
import AddonExchange.Proofs.Text.Basic
import AddonExchange.Proofs.Text.Folding
import AddonExchange.Proofs.Text.Infix
import AddonExchange.Proofs.Text.Path
import AddonExchange.Proofs.Text.Utf8
import AddonExchange.Proofs.Tree.Canonical
import AddonExchange.Proofs.Tree.Change
import AddonExchange.Proofs.Tree.Copy
import AddonExchange.Proofs.Tree.Depth
import AddonExchange.Proofs.Tree.DepthLimit
import AddonExchange.Proofs.Tree.Entry
import AddonExchange.Proofs.Tree.Fault
import AddonExchange.Proofs.Tree.FileEntries
import AddonExchange.Proofs.Tree.Format
import AddonExchange.Proofs.Tree.MapFiles
import AddonExchange.Proofs.Tree.Navigation
import AddonExchange.Proofs.Tree.Preorder
import AddonExchange.Proofs.Tree.Reading
import AddonExchange.Proofs.Tree.Refusal
import AddonExchange.Proofs.Tree.RoundTrip
import AddonExchange.Proofs.Tree.SiblingUnique
import AddonExchange.Proofs.Tree.StoredContents
import AddonExchange.Proofs.Tree.Visit
import AddonExchange.Proofs.Tree.Walk
import AddonExchange.Proofs.Tree.Writing
import AddonExchange.Service
import AddonExchange.Settings.Basic
import AddonExchange.Settings.Conversion
import AddonExchange.Settings.Disk
import AddonExchange.Settings.Document
import AddonExchange.Settings.Expansion
import AddonExchange.Settings.File
import AddonExchange.Settings.Integer
import AddonExchange.Settings.Issue
import AddonExchange.Settings.Validation
import AddonExchange.Sync.Containment
import AddonExchange.Sync.Difference
import AddonExchange.Sync.FileHash
import AddonExchange.Sync.HashList
import AddonExchange.Sync.UpdatePack
import AddonExchange.Text.Basic
import AddonExchange.Text.Blank
import AddonExchange.Text.Printable
import AddonExchange.Text.Quoted
import AddonExchange.Text.Utf8
import AddonExchange.Text.WordCharacter
import AddonExchange.Tree.Basic
import AddonExchange.Tree.Fault
import AddonExchange.Tree.Preorder
import AddonExchange.Tree.Reader
import AddonExchange.Tree.Walk
import AddonExchange.Tree.Writer
import AddonExchange.Value.Basic
import AddonExchange.Value.Binary64
import AddonExchange.Yaml.Document
import AddonExchange.Yaml.Fault
import AddonExchange.Yaml.Glyph
import AddonExchange.Yaml.Lexer
import AddonExchange.Yaml.Node
import AddonExchange.Yaml.Number
import AddonExchange.Yaml.Property
import AddonExchange.Yaml.Scalar
import AddonExchange.Yaml.Scan
import AddonExchange.Yaml.Tag
import AddonExchange.Yaml.Timestamp
import AddonExchange.Yaml.Token
