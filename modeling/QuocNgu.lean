import QuocNgu.Letter.Request
import QuocNgu.Main
import QuocNgu.Proofs.Letter.Editing
import QuocNgu.Proofs.Letter.Lowering
import QuocNgu.Proofs.Trie.Insertion
import QuocNgu.Proofs.Trie.Query
import QuocNgu.Proofs.Trie.Walking
import QuocNgu.Proofs.Trie.Completion
import QuocNgu.Proofs.Spec.Marking
import QuocNgu.Proofs.Layout.Indexing
import QuocNgu.Proofs.Lexicon.Loading
import QuocNgu.Proofs.Json.Strict
import QuocNgu.Proofs.Text.Order
import QuocNgu.Proofs.WordList.Loading
import QuocNgu.Proofs.CommandLine.Completing
import QuocNgu.Proofs.Json.Steps
import QuocNgu.Proofs.Json.RoundTrip
import QuocNgu.Proofs.FileSystem.Writing
import QuocNgu.Proofs.Config.RoundTrip
import QuocNgu.Proofs.Json.Mapping
import QuocNgu.Proofs.Config.Repairing
import QuocNgu.Proofs.Config.Loading
import QuocNgu.Proofs.Session.Quiet
import QuocNgu.Proofs.Config.Usable
import QuocNgu.Proofs.CommandLine.Performing
import QuocNgu.Proofs.CommandLine.Ordering
import QuocNgu.Proofs.Rule.Lines
import QuocNgu.Proofs.CommandLine.Layouts
import QuocNgu.Proofs.Text.Splitting
import QuocNgu.Proofs.Spec.Runs
import QuocNgu.Proofs.Spec.Appending
import QuocNgu.Proofs.Text.Cutting
import QuocNgu.Proofs.Trie.Growing
import QuocNgu.Proofs.Trie.Typing
import QuocNgu.Proofs.Layout.Failing
import QuocNgu.Proofs.Spec.Horning
import QuocNgu.Proofs.Layout.SuperKeys
import QuocNgu.Proofs.Json.Grammar
import QuocNgu.Proofs.Json.Tokens
import QuocNgu.Proofs.Json.Parsing
import QuocNgu.Proofs.Text.Trimming
import QuocNgu.Proofs.WordList.Contents
import QuocNgu.Proofs.WordList.Files
import QuocNgu.Proofs.Spec.Reporting
import QuocNgu.Proofs.Text.Barriers
import QuocNgu.Proofs.Spec.Casing
import QuocNgu.Proofs.Rule.Printing
import QuocNgu.Proofs.FileSystem.Sparing
import QuocNgu.Proofs.Config.Sparing
import QuocNgu.Proofs.Letter.Runs
import QuocNgu.Proofs.Rule.Trees
