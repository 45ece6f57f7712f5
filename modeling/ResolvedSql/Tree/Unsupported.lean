set_option autoImplicit false

namespace ResolvedSql

inductive UnsupportedKind where
  | expressionColumn | constant | systemVariable | inlineLambda | filterFieldArg | filterField
  | extendedCastElement | extendedCast | cast | makeStruct | makeProto | makeProtoField
  | getProtoField | getJsonField | flatten | flattenedArg | replaceFieldItem | replaceField
  | letExpr | model | connection | descriptor | joinScan | columnHolder | groupingSet
  | anonymizedAggregateScan | sampleScan | tvfScan | groupRowsScan | recursiveRefScan
  | recursiveScan | relationArgumentScan | pivotColumn | pivotScan | unpivotArg | unpivotScan
  | columnAnnotations | generatedColumnInfo | columnDefaultValue | columnDefinition | primaryKey
  | foreignKey | checkConstraint | optionItem | indexItem | unnestItem | withPartitionColumns
  | explainStmt | createDatabaseStmt | createIndexStmt | createSchemaStmt | createTableStmt
  | createTableAsSelectStmt | createModelStmt | createViewStmt | createMaterializedViewStmt
  | createSnapshotTableStmt | createExternalTableStmt | createFunctionStmt
  | createTableFunctionStmt | createProcedureStmt | createConstantStmt | createEntityStmt
  | createRowAccessPolicyStmt | createPrivilegeRestrictionStmt | exportModelStmt | exportDataStmt
  | defineTableStmt | describeStmt | showStmt | beginStmt | setTransactionStmt | commitStmt
  | rollbackStmt | startBatchStmt | runBatchStmt | abortBatchStmt | dropStmt
  | dropMaterializedViewStmt | dropSnapshotTableStmt | dropFunctionStmt | dropTableFunctionStmt
  | dropRowAccessPolicyStmt | dropPrivilegeRestrictionStmt | dropSearchIndexStmt | assertStmt
  | assertRowsModified | updateArrayItem | mergeWhen | mergeStmt | truncateStmt | objectUnit
  | privilege | grantStmt | revokeStmt | alterDatabaseStmt | alterMaterializedViewStmt
  | alterSchemaStmt | alterTableStmt | alterViewStmt | alterTableSetOptionsStmt
  | alterPrivilegeRestrictionStmt | alterRowAccessPolicyStmt | alterAllRowAccessPoliciesStmt
  | alterEntityStmt | setOptionsAction | addColumnAction | addConstraintAction
  | dropConstraintAction | dropPrimaryKeyAction | alterColumnOptionsAction
  | alterColumnDropNotNullAction | alterColumnSetDataTypeAction | alterColumnSetDefaultAction
  | alterColumnDropDefaultAction | dropColumnAction | renameColumnAction | setAsAction
  | setCollateClause | renameStmt | grantToAction | restrictToAction | addToRestricteeListAction
  | removeFromRestricteeListAction | filterUsingAction | revokeFromAction | renameToAction
  | argumentDef | argumentList | functionSignatureHolder | functionArgument | callStmt | importStmt
  | moduleStmt | aggregateHavingModifier | executeImmediateArgument | executeImmediateStmt
  | assignmentStmt | returningClause | cloneDataStmt | tableAndColumnInfo | analyzeStmt
  | auxLoadDataStmt
  deriving DecidableEq, Repr

namespace UnsupportedKind

def all : List UnsupportedKind :=
  [.expressionColumn, .constant, .systemVariable, .inlineLambda, .filterFieldArg, .filterField,
    .extendedCastElement, .extendedCast, .cast, .makeStruct, .makeProto, .makeProtoField,
    .getProtoField, .getJsonField, .flatten, .flattenedArg, .replaceFieldItem, .replaceField,
    .letExpr, .model, .connection, .descriptor, .joinScan, .columnHolder, .groupingSet,
    .anonymizedAggregateScan, .sampleScan, .tvfScan, .groupRowsScan, .recursiveRefScan,
    .recursiveScan, .relationArgumentScan, .pivotColumn, .pivotScan, .unpivotArg, .unpivotScan,
    .columnAnnotations, .generatedColumnInfo, .columnDefaultValue, .columnDefinition, .primaryKey,
    .foreignKey, .checkConstraint, .optionItem, .indexItem, .unnestItem, .withPartitionColumns,
    .explainStmt, .createDatabaseStmt, .createIndexStmt, .createSchemaStmt, .createTableStmt,
    .createTableAsSelectStmt, .createModelStmt, .createViewStmt, .createMaterializedViewStmt,
    .createSnapshotTableStmt, .createExternalTableStmt, .createFunctionStmt,
    .createTableFunctionStmt, .createProcedureStmt, .createConstantStmt, .createEntityStmt,
    .createRowAccessPolicyStmt, .createPrivilegeRestrictionStmt, .exportModelStmt, .exportDataStmt,
    .defineTableStmt, .describeStmt, .showStmt, .beginStmt, .setTransactionStmt, .commitStmt,
    .rollbackStmt, .startBatchStmt, .runBatchStmt, .abortBatchStmt, .dropStmt,
    .dropMaterializedViewStmt, .dropSnapshotTableStmt, .dropFunctionStmt, .dropTableFunctionStmt,
    .dropRowAccessPolicyStmt, .dropPrivilegeRestrictionStmt, .dropSearchIndexStmt, .assertStmt,
    .assertRowsModified, .updateArrayItem, .mergeWhen, .mergeStmt, .truncateStmt, .objectUnit,
    .privilege, .grantStmt, .revokeStmt, .alterDatabaseStmt, .alterMaterializedViewStmt,
    .alterSchemaStmt, .alterTableStmt, .alterViewStmt, .alterTableSetOptionsStmt,
    .alterPrivilegeRestrictionStmt, .alterRowAccessPolicyStmt, .alterAllRowAccessPoliciesStmt,
    .alterEntityStmt, .setOptionsAction, .addColumnAction, .addConstraintAction,
    .dropConstraintAction, .dropPrimaryKeyAction, .alterColumnOptionsAction,
    .alterColumnDropNotNullAction, .alterColumnSetDataTypeAction, .alterColumnSetDefaultAction,
    .alterColumnDropDefaultAction, .dropColumnAction, .renameColumnAction, .setAsAction,
    .setCollateClause, .renameStmt, .grantToAction, .restrictToAction, .addToRestricteeListAction,
    .removeFromRestricteeListAction, .filterUsingAction, .revokeFromAction, .renameToAction,
    .argumentDef, .argumentList, .functionSignatureHolder, .functionArgument, .callStmt,
    .importStmt, .moduleStmt, .aggregateHavingModifier, .executeImmediateArgument,
    .executeImmediateStmt, .assignmentStmt, .returningClause, .cloneDataStmt, .tableAndColumnInfo,
    .analyzeStmt, .auxLoadDataStmt]

def name : UnsupportedKind → String
  | .expressionColumn => "expression_column"
  | .constant => "constant"
  | .systemVariable => "system_variable"
  | .inlineLambda => "inline_lambda"
  | .filterFieldArg => "filter_field_arg"
  | .filterField => "filter_field"
  | .extendedCastElement => "extended_cast_element"
  | .extendedCast => "extended_cast"
  | .cast => "cast"
  | .makeStruct => "make_struct"
  | .makeProto => "make_proto"
  | .makeProtoField => "make_proto_field"
  | .getProtoField => "get_proto_field"
  | .getJsonField => "get_json_field"
  | .flatten => "flatten"
  | .flattenedArg => "flattened_arg"
  | .replaceFieldItem => "replace_field_item"
  | .replaceField => "replace_field"
  | .letExpr => "let_expr"
  | .model => "model"
  | .connection => "connection"
  | .descriptor => "descriptor"
  | .joinScan => "join_scan"
  | .columnHolder => "column_holder"
  | .groupingSet => "grouping_set"
  | .anonymizedAggregateScan => "anonymized_aggregate_scan"
  | .sampleScan => "sample_scan"
  | .tvfScan => "tvf_scan"
  | .groupRowsScan => "group_rows_scan"
  | .recursiveRefScan => "recursive_ref_scan"
  | .recursiveScan => "recursive_scan"
  | .relationArgumentScan => "relation_argument_scan"
  | .pivotColumn => "pivot_column"
  | .pivotScan => "pivot_scan"
  | .unpivotArg => "unpivot_arg"
  | .unpivotScan => "unpivot_scan"
  | .columnAnnotations => "column_annotations"
  | .generatedColumnInfo => "generated_column_info"
  | .columnDefaultValue => "column_default_value"
  | .columnDefinition => "column_definition"
  | .primaryKey => "primary_key"
  | .foreignKey => "foreign_key"
  | .checkConstraint => "check_constraint"
  | .optionItem => "option"
  | .indexItem => "index_item"
  | .unnestItem => "unnest_item"
  | .withPartitionColumns => "with_partition_columns"
  | .explainStmt => "explain_stmt"
  | .createDatabaseStmt => "create_database_stmt"
  | .createIndexStmt => "create_index_stmt"
  | .createSchemaStmt => "create_schema_stmt"
  | .createTableStmt => "create_table_stmt"
  | .createTableAsSelectStmt => "create_table_as_select_stmt"
  | .createModelStmt => "create_model_stmt"
  | .createViewStmt => "create_view_stmt"
  | .createMaterializedViewStmt => "create_materialized_view_stmt"
  | .createSnapshotTableStmt => "create_snapshot_table_stmt"
  | .createExternalTableStmt => "create_external_table_stmt"
  | .createFunctionStmt => "create_function_stmt"
  | .createTableFunctionStmt => "create_table_function_stmt"
  | .createProcedureStmt => "create_procedure_stmt"
  | .createConstantStmt => "create_constant_stmt"
  | .createEntityStmt => "create_entity_stmt"
  | .createRowAccessPolicyStmt => "create_row_access_policy_stmt"
  | .createPrivilegeRestrictionStmt => "create_privilege_restriction_stmt"
  | .exportModelStmt => "export_model_stmt"
  | .exportDataStmt => "export_data_stmt"
  | .defineTableStmt => "define_table_stmt"
  | .describeStmt => "describe_stmt"
  | .showStmt => "show_stmt"
  | .beginStmt => "begin_stmt"
  | .setTransactionStmt => "set_transaction_stmt"
  | .commitStmt => "commit_stmt"
  | .rollbackStmt => "rollback_stmt"
  | .startBatchStmt => "start_batch_stmt"
  | .runBatchStmt => "run_batch_stmt"
  | .abortBatchStmt => "abort_batch_stmt"
  | .dropStmt => "drop_stmt"
  | .dropMaterializedViewStmt => "drop_materialized_view_stmt"
  | .dropSnapshotTableStmt => "drop_snapshot_table_stmt"
  | .dropFunctionStmt => "drop_function_stmt"
  | .dropTableFunctionStmt => "drop_table_function_stmt"
  | .dropRowAccessPolicyStmt => "drop_row_access_policy_stmt"
  | .dropPrivilegeRestrictionStmt => "drop_privilege_restriction_stmt"
  | .dropSearchIndexStmt => "drop_search_index_stmt"
  | .assertStmt => "assert_stmt"
  | .assertRowsModified => "assert_rows_modified"
  | .updateArrayItem => "update_array_item"
  | .mergeWhen => "merge_when"
  | .mergeStmt => "merge_stmt"
  | .truncateStmt => "truncate_stmt"
  | .objectUnit => "object_unit"
  | .privilege => "privilege"
  | .grantStmt => "grant_stmt"
  | .revokeStmt => "revoke_stmt"
  | .alterDatabaseStmt => "alter_database_stmt"
  | .alterMaterializedViewStmt => "alter_materialized_view_stmt"
  | .alterSchemaStmt => "alter_schema_stmt"
  | .alterTableStmt => "alter_table_stmt"
  | .alterViewStmt => "alter_view_stmt"
  | .alterTableSetOptionsStmt => "alter_table_set_options_stmt"
  | .alterPrivilegeRestrictionStmt => "alter_privilege_restriction_stmt"
  | .alterRowAccessPolicyStmt => "alter_row_access_policy_stmt"
  | .alterAllRowAccessPoliciesStmt => "alter_all_row_access_policies_stmt"
  | .alterEntityStmt => "alter_entity_stmt"
  | .setOptionsAction => "set_options_action"
  | .addColumnAction => "add_column_action"
  | .addConstraintAction => "add_constraint_action"
  | .dropConstraintAction => "drop_constraint_action"
  | .dropPrimaryKeyAction => "drop_primary_key_action"
  | .alterColumnOptionsAction => "alter_column_options_action"
  | .alterColumnDropNotNullAction => "alter_column_drop_not_null_action"
  | .alterColumnSetDataTypeAction => "alter_column_set_data_type_action"
  | .alterColumnSetDefaultAction => "alter_column_set_default_action"
  | .alterColumnDropDefaultAction => "alter_column_drop_default_action"
  | .dropColumnAction => "drop_column_action"
  | .renameColumnAction => "rename_column_action"
  | .setAsAction => "set_as_action"
  | .setCollateClause => "set_collate_clause"
  | .renameStmt => "rename_stmt"
  | .grantToAction => "grant_to_action"
  | .restrictToAction => "restrict_to_action"
  | .addToRestricteeListAction => "add_to_restrictee_list_action"
  | .removeFromRestricteeListAction => "remove_from_restrictee_list_action"
  | .filterUsingAction => "filter_using_action"
  | .revokeFromAction => "revoke_from_action"
  | .renameToAction => "rename_to_action"
  | .argumentDef => "argument_def"
  | .argumentList => "argument_list"
  | .functionSignatureHolder => "function_signature_holder"
  | .functionArgument => "function_argument"
  | .callStmt => "call_stmt"
  | .importStmt => "import_stmt"
  | .moduleStmt => "module_stmt"
  | .aggregateHavingModifier => "aggregate_having_modifier"
  | .executeImmediateArgument => "execute_immediate_argument"
  | .executeImmediateStmt => "execute_immediate_stmt"
  | .assignmentStmt => "assignment_stmt"
  | .returningClause => "returning_clause"
  | .cloneDataStmt => "clone_data_stmt"
  | .tableAndColumnInfo => "table_and_column_info"
  | .analyzeStmt => "analyze_stmt"
  | .auxLoadDataStmt => "aux_load_data_stmt"

def ofName? (s : String) : Option UnsupportedKind := all.find? fun k => k.name = s

end UnsupportedKind
end ResolvedSql
